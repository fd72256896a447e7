import ClusterClient.Table
import ClusterClient.Decimal.Binary64
/-!
JSON values. What was read keeps the members of an object as they were written;
the canonical form of a value has every member once, in the order of the names.
-/
namespace ClusterClient

/-- An object is `respelled` if one of its names was written with an escape. A value
that is `unusable` was well formed, but means nothing: a string with half a character
in it, or a number beyond all bounds. -/
inductive Json
  | null
  | bool (b : Bool)
  | int (n : Int)
  | real (x : Binary64)
  | text (s : String)
  | list (items : List Json)
  | object (members : List (String × Json))
  | respelled (members : List (String × Json))
  | unusable
deriving Inhabited

namespace Json

def members? : Json → Option (List (String × Json))
  | object members | respelled members => some members
  | _ => none

mutual

/-- For values in canonical form. -/
def same : Json → Json → Bool
  | null, null => true
  | bool a, bool b => a == b
  | int a, int b => a == b
  | real a, real b => a == b
  | text a, text b => a == b
  | list a, list b => sameItems a b
  | object a, object b => sameMembers a b
  | _, _ => false

def sameItems : List Json → List Json → Bool
  | [], [] => true
  | a :: as, b :: bs => same a b && sameItems as bs
  | _, _ => false

def sameMembers : List (String × Json) → List (String × Json) → Bool
  | [], [] => true
  | (k, a) :: as, (k', b) :: bs => k == k' && same a b && sameMembers as bs
  | _, _ => false

end

instance : BEq Json := ⟨same⟩

/-- Of members with one name the last one counts. -/
def ordered (members : List (String × Json)) : List (String × Json) :=
  (Table.ofList members).entries

mutual

/-- None if some part of the value is unusable. -/
def canonical? : Json → Option Json
  | null => some null
  | bool b => some (bool b)
  | int n => some (int n)
  | real x => some (real x)
  | text s => some (text s)
  | list items => (canonicalItems? items).map list
  | object members | respelled members =>
    (canonicalMembers? members).map fun ms => object (ordered ms)
  | unusable => none

def canonicalItems? : List Json → Option (List Json)
  | [] => some []
  | j :: rest =>
    match canonical? j, canonicalItems? rest with
    | some j, some rest => some (j :: rest)
    | _, _ => none

def canonicalMembers? : List (String × Json) → Option (List (String × Json))
  | [] => some []
  | (k, j) :: rest =>
    match canonical? j, canonicalMembers? rest with
    | some j, some rest => some ((k, j) :: rest)
    | _, _ => none

end

end Json

end ClusterClient
