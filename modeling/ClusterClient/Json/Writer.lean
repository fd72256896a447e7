import ClusterClient.Json
import ClusterClient.Text.Numeral
/-!
Writing JSON without any space. Only quotes, backslashes and control characters
are escaped.
-/
namespace ClusterClient.Json

open Text

def escape (c : Char) : List Char :=
  match c with
  | '"' => ['\\', '"']
  | '\\' => ['\\', '\\']
  | '\x08' => ['\\', 'b']
  | '\x0c' => ['\\', 'f']
  | '\n' => ['\\', 'n']
  | '\r' => ['\\', 'r']
  | '\t' => ['\\', 't']
  | c => if c.toNat < 0x20 then '\\' :: 'u' :: hex 4 c.toNat else [c]

def writeString (s : String) : List Char := '"' :: s.toList.flatMap escape ++ ['"']

/-- Positional from 10^-5 up to below 10^16, with a point in any case; otherwise
one digit, the others behind the point, and the exponent with its sign. -/
def writeReal (x : Binary64) : List Char :=
  let (d, e) := x.shortest
  let ds := decimal d
  let point : Int := ds.length + e
  let size :=
    if d = 0 then ['0', '.', '0']
    else if 0 ≤ e ∧ point ≤ 16 then ds ++ List.replicate e.toNat '0' ++ ['.', '0']
    else if 0 < point ∧ point ≤ 16 then ds.take point.toNat ++ '.' :: ds.drop point.toNat
    else if -5 < point ∧ point ≤ 0 then
      '0' :: '.' :: List.replicate point.natAbs '0' ++ ds
    else
      let mark := if 0 < point then 'e' :: '+' :: signed (point - 1) else 'e' :: signed (point - 1)
      match ds with
      | [c] => c :: mark
      | c :: rest => c :: '.' :: rest ++ mark
      | [] => mark
  if x.negative then '-' :: size else size

mutual

def write : Json → List Char
  | null | unusable => ['n', 'u', 'l', 'l']
  | bool true => ['t', 'r', 'u', 'e']
  | bool false => ['f', 'a', 'l', 's', 'e']
  | int n => signed n
  | real x => writeReal x
  | text s => writeString s
  | list items => '[' :: writeItems items
  | object members | respelled members => '\x7b' :: writeMembers members

def writeItems : List Json → List Char
  | [] => [']']
  | [j] => write j ++ [']']
  | j :: rest => write j ++ ',' :: writeItems rest

def writeMembers : List (String × Json) → List Char
  | [] => ['\x7d']
  | [(k, j)] => writeString k ++ ':' :: write j ++ ['\x7d']
  | (k, j) :: rest => writeString k ++ ':' :: write j ++ ',' :: writeMembers rest

end

def print (j : Json) : String := String.ofList (write j)

end ClusterClient.Json
