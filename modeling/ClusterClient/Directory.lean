import ClusterClient.Catalog
import ClusterClient.Meta.Message
/-!
What is in force at present: the catalog, which is only ever replaced as a
whole, and the configuration items.
-/
namespace ClusterClient

abbrev Configs := Table String ConfigItem

structure Directory where
  catalog : Catalog
  configs : Configs

namespace Directory

def empty : Directory := ⟨∅, ∅⟩

def config (d : Directory) (name : String) : Except Fault ConfigItem :=
  match d.configs.get? name with
  | some item => .ok item
  | none => .error (.missing (.config name))

end Directory

/-- Of items with one name the last one counts. -/
def Configs.ofList (items : List ConfigItem) : Configs :=
  Table.ofList (items.map fun i => (i.name, i))

end ClusterClient
