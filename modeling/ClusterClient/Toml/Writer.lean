import ClusterClient.Toml
/-!
Writing TOML documents: tables of scalars, each under its header, with an empty
line between two of them. A text takes the first of these forms that shows it
without an escape: in double quotes, in single quotes, in three double quotes, in
three single quotes. If there is none it is escaped.
-/
namespace ClusterClient.Toml

open Text

/-- Neither a tab nor a line feed, which need no escape everywhere. -/
def isControl (c : Char) : Bool :=
  c != '\t' && c != '\n' && (c.toNat < 0x20 || c.toNat == 0x7f)

/-- Whether a character stands three times in a row. -/
def thrice (q : Char) : List Char → Bool
  | a :: b :: c :: rest => (a == q && b == q && c == q) || thrice q (b :: c :: rest)
  | _ => false

inductive Quoting
  | basic
  | literal
  | longBasic
  | longLiteral
deriving DecidableEq, Repr

def quoting (cs : List Char) : Quoting :=
  let lines := cs.contains '\n'
  let escaped := if lines then .longBasic else .basic
  if cs.any isControl then escaped
  else if !cs.contains '\\' && !cs.contains '"' && !lines then .basic
  else if !cs.contains '\'' && !lines then .literal
  else if !cs.contains '\\' && !thrice '"' cs then .longBasic
  else if !thrice '\'' cs then .longLiteral
  else escaped

def escape (c : Char) : List Char :=
  match c with
  | '"' => ['\\', '"']
  | '\\' => ['\\', '\\']
  | '\x08' => ['\\', 'b']
  | '\t' => ['\\', 't']
  | '\n' => ['\\', 'n']
  | '\x0c' => ['\\', 'f']
  | '\r' => ['\\', 'r']
  | c => if isControl c then '\\' :: 'u' :: (hex 4 c.toNat).map Char.toUpper else [c]

/-- Lines are kept, and of double quotes only every third in a row is escaped; the
number tells how many came right before. -/
def escapeLong : Nat → List Char → List Char
  | _, [] => []
  | n, '"' :: rest =>
    if n = 2 then '\\' :: '"' :: escapeLong 0 rest else '"' :: escapeLong (n + 1) rest
  | _, '\n' :: rest => '\n' :: escapeLong 0 rest
  | _, c :: rest => escape c ++ escapeLong 0 rest

/-- A text of several lines starts on a line of its own. -/
def lead (cs : List Char) : List Char := if cs.contains '\n' then ['\n'] else []

def writeText (cs : List Char) : List Char :=
  match quoting cs with
  | .basic => '"' :: cs.flatMap escape ++ ['"']
  | .literal => '\'' :: cs ++ ['\'']
  | .longBasic => ['"', '"', '"'] ++ lead cs ++ escapeLong 0 cs ++ ['"', '"', '"']
  | .longLiteral => ['\'', '\'', '\''] ++ lead cs ++ cs ++ ['\'', '\'', '\'']

def writeScalar : Scalar → List Char
  | .text s => writeText s.toList
  | .int n => signed n
  | .bool true => ['t', 'r', 'u', 'e']
  | .bool false => ['f', 'a', 'l', 's', 'e']

/-- A table under its header. The names in it are bare keys. -/
structure Section where
  name : String
  entries : List (String × Scalar)
deriving DecidableEq, Repr

def writeEntry (e : String × Scalar) : List Char :=
  e.1.toList ++ [' ', '=', ' '] ++ writeScalar e.2 ++ ['\n']

def Section.write (s : Section) : List Char :=
  '[' :: s.name.toList ++ [']', '\n'] ++ s.entries.flatMap writeEntry

def writeSections : List Section → List Char
  | [] => []
  | [s] => s.write
  | s :: rest => s.write ++ '\n' :: writeSections rest

end ClusterClient.Toml
