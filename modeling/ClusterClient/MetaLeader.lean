import ClusterClient.Fault
/-!
Which of the configured meta hosts is taken for the leader, and which one for
alive. A host that fails is given up for some other one; which one that is, is
left to the `choice` that goes with each operation.
-/
namespace ClusterClient

structure MetaLeader where
  addresses : List Host
  leader : Host
  active : Host
deriving DecidableEq, Repr

namespace MetaLeader

/-- The element that a choice stands for, any number standing for some. -/
def choose? {α : Type} (l : List α) (choice : Nat) : Option α := l[choice % l.length]?

def start (addresses : List Host) (choice : Nat) : Except Fault MetaLeader :=
  match choose? addresses choice with
  | some h => .ok ⟨addresses, h, h⟩
  | none => .error (.config .noMetaAddress)

variable (m : MetaLeader)

def target (toLeader : Bool) : Host := if toLeader then m.leader else m.active

/-- The short form for logs. -/
def described : String := "MetaClient \x7b leader: " ++ m.leader.described ++ " \x7d"

def setLeader (leader : Host) : MetaLeader := { m with leader, active := leader }

/-- Some configured host other than the failed one, if there is any. -/
def other (failed : Host) (choice : Nat) : Host :=
  (choose? (m.addresses.filter fun h => h != failed) choice).getD failed

def rotateLeader (failed : Host) (choice : Nat) : MetaLeader :=
  if m.leader = failed then { m with leader := m.other failed choice } else m

def rotateActive (failed : Host) (choice : Nat) : MetaLeader :=
  if m.active = failed then { m with active := m.other failed choice } else m

def rotate (toLeader : Bool) (failed : Host) (choice : Nat) : MetaLeader :=
  if toLeader then m.rotateLeader failed choice else m.rotateActive failed choice

end MetaLeader

end ClusterClient
