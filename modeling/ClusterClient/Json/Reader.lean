import ClusterClient.Json
import ClusterClient.Text.Numeral
/-!
Reading JSON text. Integers keep their value up to 64 bits. A number that is no
such integer is a product or quotient of two rounded numbers: of the digits as
far as they fit into 64 bits, and of a power of ten. Values nested deeper than
`depthLimit` are unusable.
-/
namespace ClusterClient.Json

open Text

def depthLimit : Nat := 128

def isSpace (c : Char) : Bool := c == ' ' || c == '\t' || c == '\n' || c == '\r'

def skipSpace : List Char → List Char
  | c :: rest => if isSpace c then skipSpace rest else c :: rest
  | [] => []

def hex4? (a b c d : Char) : Option Nat := do
  let a ← hexDigit? a
  let b ← hexDigit? b
  let c ← hexDigit? c
  let d ← hexDigit? d
  return ((a * 16 + b) * 16 + c) * 16 + d

def isHigh (n : Nat) : Bool := 0xD800 ≤ n && n ≤ 0xDBFF
def isLow (n : Nat) : Bool := 0xDC00 ≤ n && n ≤ 0xDFFF

def simpleEscape? : Char → Option Char
  | '"' => some '"'
  | '\\' => some '\\'
  | '/' => some '/'
  | 'b' => some '\x08'
  | 'f' => some '\x0c'
  | 'n' => some '\n'
  | 'r' => some '\r'
  | 't' => some '\t'
  | _ => none

/-- The rest of a string after its opening quote, as code points; an escape may
give half of one. -/
def readUnits : List Char → Option (List Nat × List Char)
  | [] => none
  | '"' :: rest => some ([], rest)
  | '\\' :: 'u' :: a :: b :: c :: d :: rest =>
    match hex4? a b c d with
    | none => none
    | some n => (readUnits rest).map fun (units, rest) => (n :: units, rest)
  | '\\' :: c :: rest =>
    match simpleEscape? c with
    | none => none
    | some c => (readUnits rest).map fun (units, rest) => (c.toNat :: units, rest)
  | c :: rest =>
    if c.toNat < 0x20 then none
    else (readUnits rest).map fun (units, rest) => (c.toNat :: units, rest)

/-- Joins the halves of code points; none if one stands alone. -/
def joinUnits : List Nat → Option (List Char)
  | [] => some []
  | [n] => if isHigh n || isLow n then none else some [Char.ofNat n]
  | n :: m :: rest =>
    if isHigh n then
      if isLow m then
        (joinUnits rest).map (Char.ofNat (0x10000 + (n - 0xD800) * 0x400 + (m - 0xDC00)) :: ·)
      else none
    else if isLow n then none
    else (joinUnits (m :: rest)).map (Char.ofNat n :: ·)

/-- Whether a string whose opening quote is just behind was written without escapes. -/
def isPlain (cs : List Char) : Bool := !(cs.takeWhile (· != '"')).contains '\\'

/-- Puts a member in front; without a usable name there is no usable object. -/
def withMember (plain : Bool) (name : Option String) (value : Json) : Json → Json
  | object members =>
    match name with
    | none => unusable
    | some n => if plain then object ((n, value) :: members) else respelled ((n, value) :: members)
  | respelled members =>
    match name with
    | none => unusable
    | some n => respelled ((n, value) :: members)
  | j => j

def readString (cs : List Char) : Option (Option String × List Char) :=
  (readUnits cs).map fun (units, rest) => ((joinUnits units).map String.ofList, rest)

/-- Digits are taken in while their number stays below 2^64; then they are only
counted. -/
structure Digits where
  value : Nat
  counted : Nat
  dropped : Nat

def takeDigits : Digits → List Char → Digits × List Char
  | d, [] => (d, [])
  | d, c :: rest =>
    match digit? c with
    | none => (d, c :: rest)
    | some n =>
      if d.dropped = 0 ∧ d.value * 10 + n < UInt64.size then
        takeDigits ⟨d.value * 10 + n, d.counted + 1, 0⟩ rest
      else takeDigits ⟨d.value, d.counted, d.dropped + 1⟩ rest

def tenTo (n : Nat) : Option Binary64 := Binary64.ofNat? (Nat.pow 10 n)

def scaleDown : Nat → Binary64 → Nat → Option Binary64
  | 0, x, _ => some x
  | fuel + 1, x, e =>
    if x.isZero then some x
    else if e ≤ 308 then do x.dividedBy? (← tenTo e)
    else do scaleDown fuel (← x.dividedBy? (← tenTo 308)) (e - 308)

def realOf (negative : Bool) (digits : Nat) (exponent : Int) : Json :=
  let size := do
    let x ← Binary64.ofNat? digits
    if 0 ≤ exponent then
      if x.isZero then some x
      else if exponent ≤ 308 then x.times? (← tenTo exponent.toNat)
      else none
    else scaleDown (exponent.natAbs / 308 + 2) x exponent.natAbs
  match size with
  | some x => .real { x with negative }
  | none => .unusable

def readExponent (negative : Bool) (digits : Nat) (start : Int) (cs : List Char) :
    Option (Json × List Char) :=
  let (down, cs) := match cs with
    | '+' :: rest => (false, rest)
    | '-' :: rest => (true, rest)
    | _ => (false, cs)
  let (d, rest) := takeDigits ⟨0, 0, 0⟩ cs
  if d.counted = 0 then none
  else if 0 < d.dropped ∨ 1 <<< 31 ≤ d.value then
    some (if digits = 0 ∨ down then realOf negative 0 0 else .unusable, rest)
  else
    some (realOf negative digits (if down then start - d.value else start + d.value), rest)

/-- Digits after the point are taken in as far as they fit, even if some before it
did not. -/
def readNumber (negative : Bool) (cs : List Char) : Option (Json × List Char) :=
  let whole : Option (Digits × List Char) := match cs with
    | '0' :: rest => some (⟨0, 1, 0⟩, rest)
    | _ =>
      let (d, rest) := takeDigits ⟨0, 0, 0⟩ cs
      if d.counted = 0 then none else some (d, rest)
  match whole with
  | none => none
  | some (w, '.' :: rest) =>
    let (f, rest') := takeDigits ⟨w.value, 0, 0⟩ rest
    if f.counted = 0 ∧ f.dropped = 0 then none
    else
      let exponent : Int := w.dropped - f.counted
      match rest' with
      | 'e' :: rest | 'E' :: rest => readExponent negative f.value exponent rest
      | _ => some (realOf negative f.value exponent, rest')
  | some (w, 'e' :: rest) | some (w, 'E' :: rest) =>
    readExponent negative w.value w.dropped rest
  | some (w, rest) =>
    if w.value = 0 ∧ (rest.head?.bind digit?).isSome then none
    else if 0 < w.dropped then some (realOf negative w.value w.dropped, rest)
    else if !negative then some (.int w.value, rest)
    else if 0 < w.value ∧ w.value ≤ 1 <<< 63 then some (.int (-(w.value : Int)), rest)
    else some (realOf true w.value 0, rest)

def dropWord (word : List Char) (cs : List Char) : Option (List Char) :=
  if word.isPrefixOf cs then some (cs.drop word.length) else none

def atDepth (depth : Nat) (j : Json) : Json := if depth < depthLimit then j else .unusable

mutual

def readValue : Nat → Nat → List Char → Option (Json × List Char)
  | 0, _, _ => none
  | fuel + 1, depth, cs =>
    match skipSpace cs with
    | '"' :: rest => (readString rest).map fun (s, rest) =>
      (match s with | some s => .text s | none => .unusable, rest)
    | '[' :: rest =>
      match skipSpace rest with
      | ']' :: rest => some (atDepth (depth + 1) (.list []), rest)
      | rest => (readItems fuel (depth + 1) rest).map fun (items, rest) =>
        (atDepth (depth + 1) (.list items), rest)
    | '\x7b' :: rest =>
      match skipSpace rest with
      | '\x7d' :: rest => some (atDepth (depth + 1) (.object []), rest)
      | rest => (readMembers fuel (depth + 1) rest).map fun (j, rest) =>
        (atDepth (depth + 1) j, rest)
    | 't' :: rest => (dropWord ['r', 'u', 'e'] rest).map (Json.bool true, ·)
    | 'f' :: rest => (dropWord ['a', 'l', 's', 'e'] rest).map (Json.bool false, ·)
    | 'n' :: rest => (dropWord ['u', 'l', 'l'] rest).map (Json.null, ·)
    | '-' :: rest => readNumber true rest
    | cs => readNumber false cs

/-- The items of a list up to its end, at least one. -/
def readItems : Nat → Nat → List Char → Option (List Json × List Char)
  | 0, _, _ => none
  | fuel + 1, depth, cs =>
    match readValue fuel depth cs with
    | none => none
    | some (j, rest) =>
      match skipSpace rest with
      | ']' :: rest => some ([j], rest)
      | ',' :: rest => (readItems fuel depth rest).map fun (js, rest) => (j :: js, rest)
      | _ => none

/-- The members of an object up to its end, at least one. -/
def readMembers : Nat → Nat → List Char → Option (Json × List Char)
  | 0, _, _ => none
  | fuel + 1, depth, cs =>
    match skipSpace cs with
    | '"' :: start =>
      match readString start with
      | none => none
      | some (name, rest) =>
        match skipSpace rest with
        | ':' :: rest =>
          match readValue fuel depth rest with
          | none => none
          | some (j, rest) =>
            let before := withMember (isPlain start) name j
            match skipSpace rest with
            | '\x7d' :: rest => some (before (.object []), rest)
            | ',' :: rest =>
              (readMembers fuel depth rest).map fun (more, rest) => (before more, rest)
            | _ => none
        | _ => none
    | _ => none

end

/-- A whole text: one value, with nothing but space around it. -/
def read? (cs : List Char) : Option Json :=
  match readValue (2 * cs.length + 2) 0 cs with
  | some (j, rest) => if (skipSpace rest).isEmpty then some j else none
  | none => none

def parse? (s : String) : Option Json := read? s.toList

end ClusterClient.Json
