import ClusterClient.Directory
import ClusterClient.Json.Writer
/-!
What a listener is told: how the partitions of the local host change from one
catalog to the next, and options of the storage engine for the local spaces.
-/
namespace ClusterClient

inductive Notice
  | spaceAdded (space : SpaceId)
  | spaceRemoved (space : SpaceId)
  | partAdded (p : PartHosts)
  | partUpdated (p : PartHosts)
  | partRemoved (space : SpaceId) (part : PartId)
  | optionsUpdated (space : SpaceId) (options : Table String String)
deriving DecidableEq

namespace Notice

def removal (space : SpaceId) (parts : Table PartId (List Host)) : List Notice :=
  parts.keys.map (partRemoved space) ++ [spaceRemoved space]

def arrival (space : SpaceId) (parts : Table PartId (List Host)) : List Notice :=
  spaceAdded space :: parts.entries.map fun (part, hosts) => partAdded ⟨space, part, hosts⟩

/-- Additions and updates come before removals. -/
def change (space : SpaceId) (old new : Table PartId (List Host)) : List Notice :=
  (new.entries.filterMap fun (part, hosts) =>
    match old.get? part with
    | none => some (partAdded ⟨space, part, hosts⟩)
    | some before =>
      if before = hosts then none else some (partUpdated ⟨space, part, hosts⟩)) ++
    (old.keys.filter fun part => !new.contains part).map (partRemoved space)

/-- Spaces that are gone come first, then all others, each time in ascending
order. -/
def changes (old new : LocalView) : List Notice :=
  (old.entries.flatMap fun (space, parts) =>
    if new.contains space then [] else removal space parts) ++
  new.entries.flatMap fun (space, parts) =>
    match old.get? space with
    | none => arrival space parts
    | some before => change space before parts

/-- The configuration items that are passed on to every local space. -/
def optionNames : List String := ["rocksdb_column_family_options", "rocksdb_db_options"]

/-- Text stands for itself, any other value for its JSON. -/
def optionText : Json → String
  | .text s => s
  | j => j.print

/-- The options that an item holds, if it is a table and not what it was. -/
def newOptions? (old : Option ConfigItem) (new : ConfigItem) : Option (Table String String) :=
  if (match old with | some o => o.value == new.value | none => false) then none
  else match new.value with
    | .object members => some (.ofList (members.map fun (k, j) => (k, optionText j)))
    | _ => none

def optionChanges (old new : Configs) (spaces : List SpaceId) : List Notice :=
  optionNames.flatMap fun name =>
    match new.get? name with
    | none => []
    | some item =>
      match newOptions? (old.get? name) item with
      | none => []
      | some options => spaces.map fun space => optionsUpdated space options

end Notice

end ClusterClient
