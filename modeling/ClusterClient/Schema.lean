import ClusterClient.Fault
/-!
Descriptions of a graph space and of what is stored in it.
-/
namespace ClusterClient

inductive VidType
  | int64
  | fixedString
deriving DecidableEq, Repr

structure SpaceDesc where
  name : String
  partitionNum : Int32
  replicaFactor : Int32
  vidType : VidType
  vidLen : Int32
deriving DecidableEq, Repr

instance : Inhabited SpaceDesc := ⟨⟨"", 0, 0, .fixedString, 8⟩⟩

structure FieldDef where
  name : String
  dataType : String
  nullable : Bool
  defaultValue : Option String
deriving DecidableEq, Repr

structure Schema where
  version : SchemaVersion
  fields : List FieldDef
deriving DecidableEq, Repr

def Schema.field? (s : Schema) (name : String) : Option FieldDef :=
  s.fields.find? fun f => f.name == name

/-- One version of the schema of a tag. -/
structure TagSchema where
  id : TagId
  name : String
  schema : Schema
deriving DecidableEq, Repr

/-- One version of the schema of an edge type. -/
structure EdgeSchema where
  type : EdgeType
  name : String
  schema : Schema
deriving DecidableEq, Repr

inductive SchemaRef
  | tag (id : TagId)
  | edge (type : EdgeType)
deriving DecidableEq, Repr

structure Index where
  id : IndexId
  name : String
  schema : SchemaRef
  schemaName : String
  fields : List FieldDef
deriving DecidableEq, Repr

end ClusterClient
