import ClusterClient.Json
import ClusterClient.Text.Numeral
/-!
Values as JSON. A record is an object with its fields, or a list of all of them
in order; members that it has no field for are passed over, but no field may
come twice. An enumeration is the name of its case, or an object with that name.
A table with whole numbers for keys is an object whose names are those numbers, and
they have to be written digit by digit.
-/
namespace ClusterClient

class Wire (α : Type) where
  encode : α → Json
  decode? : Json → Option α

namespace Wire

def bounded {α : Type} (low high : Int) (make : Int → α) : Json → Option α
  | .int n => if low ≤ n ∧ n ≤ high then some (make n) else none
  | _ => none

instance : Wire Int32 where
  encode n := .int n.toInt
  decode? := bounded Int32.minValue.toInt Int32.maxValue.toInt Int32.ofInt

instance : Wire Int64 where
  encode n := .int n.toInt
  decode? := bounded Int64.minValue.toInt Int64.maxValue.toInt Int64.ofInt

instance : Wire UInt16 where
  encode n := .int n.toNat
  decode? := bounded 0 (UInt16.size - 1) fun n => n.toNat.toUInt16

instance : Wire UInt64 where
  encode n := .int n.toNat
  decode? := bounded 0 (UInt64.size - 1) fun n => n.toNat.toUInt64

instance : Wire Bool where
  encode := .bool
  decode?
    | .bool b => some b
    | _ => none

instance : Wire String where
  encode := .text
  decode?
    | .text s => some s
    | _ => none

instance : Wire Json := ⟨id, Json.canonical?⟩

instance : Wire Unit where
  encode _ := .null
  decode?
    | .null => some ()
    | _ => none

variable {α : Type} [Wire α]

def decodeAll : List Json → Option (List α)
  | [] => some []
  | j :: rest => do return (← decode? j) :: (← decodeAll rest)

instance : Wire (List α) where
  encode l := .list (l.map encode)
  decode?
    | .list items => decodeAll items
    | _ => none

instance : Wire (Option α) where
  encode
    | none => .null
    | some a => encode a
  decode?
    | .null => some none
    | j => (decode? j).map some

/-- A whole number as it is written in JSON: no plus sign, no zeros in front, and
no sign before a zero. -/
def readKey (s : String) : Option Int :=
  match s.toList with
  | ['0'] => some 0
  | '-' :: c :: rest =>
    if c = '0' then none
    else (Text.readDigits (1 <<< 63) .tooLarge 0 (c :: rest)).toOption.map fun n => -(n : Int)
  | c :: rest =>
    if c = '0' then none
    else (Text.readDigits UInt64.size .tooLarge 0 (c :: rest)).toOption.map Int.ofNat
  | [] => none

def decodeEntries : List (String × Json) → Option (List (Int32 × α))
  | [] => some []
  | (key, j) :: rest => do
    let n ← readKey key
    let n ← bounded Int32.minValue.toInt Int32.maxValue.toInt Int32.ofInt (.int n)
    return (n, ← decode? j) :: (← decodeEntries rest)

/-- A table is written entry by entry, in whatever order. -/
def ofEntries (entries : List (Int32 × α)) : Json :=
  .object (entries.map fun (k, a) => (Text.showInt k.toInt, encode a))

instance : Wire (Table Int32 α) where
  encode t := ofEntries t.entries
  decode?
    | .object members => (decodeEntries members).map Table.ofList
    | _ => none

/-- The fields of a record, each of them if it is there. -/
def fields? (names : List String) : Json → Option (List (Option Json))
  | .list items => if items.length = names.length then some (items.map some) else none
  | j =>
    match j.members? with
    | none => none
    | some members =>
      if names.all fun n => (members.filter fun m => m.1 == n).length ≤ 1 then
        some (names.map fun n => members.lookup n)
      else none

def need (field : Option Json) : Option α := field.bind decode?

/-- A field that may be left out if it may be null. -/
def may (field : Option Json) : Option (Option α) :=
  match field with
  | none => some none
  | some j => decode? j

/-- The case that a value names. -/
def caseName? : Json → Option String
  | .text s => some s
  | .object [(s, .null)] | .respelled [(s, .null)] => some s
  | _ => none

end Wire

end ClusterClient
