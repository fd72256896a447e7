import ClusterClient.Fault
import ClusterClient.Text.Blank
/-!
Reading addresses: `name:port`, and lists of them separated by commas. Messages
quote the address as it was given, blanks included.
-/
namespace ClusterClient.Host

open Text

def parse (address : String) : Except Fault Host :=
  match cutLast? ':' (trim address.toList) with
  | none => .error (.invalidInput (.missingPort address))
  | some ([], _) => .error (.invalidInput (.missingName address))
  | some (name, port) =>
    match readNat 65535 port with
    | .error e => .error (.invalidInput (.badPort address e))
    | .ok n => .ok ⟨String.ofList name, n.toUInt16⟩

/-- The items of a list: what stands between commas, without blank items. -/
def items (list : String) : List String :=
  ((splitAt ',' list.toList).map trim).filterMap fun item =>
    if item.isEmpty then none else some (String.ofList item)

def parseList (list : String) : Except Fault (List Host) := (items list).mapM parse

end ClusterClient.Host
