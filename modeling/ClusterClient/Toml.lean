import ClusterClient.Text.Numeral
/-!
TOML values. Only texts, integers and truth values are told apart from each
other by what they are; of a fraction or a point in time no more is kept than
that one was there, since no setting takes one.
-/
namespace ClusterClient

namespace Toml

inductive Scalar
  | text (s : String)
  | int (n : Int)
  | bool (b : Bool)
deriving DecidableEq, Repr

end Toml

/-- A number that is `unusable` was well formed, but is beyond all bounds. -/
inductive Toml
  | scalar (s : Toml.Scalar)
  | fraction
  | moment
  | unusable
  | list (items : List Toml)
  | table (entries : List (String × Toml))
deriving Inhabited

namespace Toml

mutual

def isUsable : Toml → Bool
  | scalar (.int n) => -(1 <<< 127 : Nat) ≤ n && n < (1 <<< 128 : Nat)
  | scalar _ | fraction | moment => true
  | unusable => false
  | list items => areUsable items
  | table entries => entriesUsable entries

def areUsable : List Toml → Bool
  | [] => true
  | t :: rest => isUsable t && areUsable rest

def entriesUsable : List (String × Toml) → Bool
  | [] => true
  | (_, t) :: rest => isUsable t && entriesUsable rest

end

end Toml

end ClusterClient
