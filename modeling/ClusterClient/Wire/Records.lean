import ClusterClient.Meta.Message
import ClusterClient.Settings
import ClusterClient.Wire
/-!
The JSON forms of all that is exchanged with the meta service or configured.
-/
namespace ClusterClient.Wire

instance : Wire Host where
  encode h := .object [("host", encode h.name), ("port", encode h.port)]
  decode? j := do
    let [name, port] ← fields? ["host", "port"] j | none
    return ⟨← need name, ← need port⟩

instance : Wire PartHosts where
  encode p := .object
    [("space_id", encode p.space), ("part_id", encode p.part), ("hosts", encode p.hosts)]
  decode? j := do
    let [space, part, hosts] ← fields? ["space_id", "part_id", "hosts"] j | none
    return ⟨← need space, ← need part, ← need hosts⟩

instance : Wire VidType where
  encode
    | .int64 => .text "Int64"
    | .fixedString => .text "FixedString"
  decode? j := do
    match ← caseName? j with
    | "Int64" => some .int64
    | "FixedString" => some .fixedString
    | _ => none

instance : Wire SpaceDesc where
  encode d := .object
    [("space_name", encode d.name), ("partition_num", encode d.partitionNum),
      ("replica_factor", encode d.replicaFactor), ("vid_type", encode d.vidType),
      ("vid_len", encode d.vidLen)]
  decode? j := do
    let [name, partitionNum, replicaFactor, vidType, vidLen] ←
      fields? ["space_name", "partition_num", "replica_factor", "vid_type", "vid_len"] j | none
    return ⟨← need name, ← need partitionNum, ← need replicaFactor, ← need vidType, ← need vidLen⟩

instance : Wire FieldDef where
  encode f := .object
    [("name", encode f.name), ("data_type", encode f.dataType), ("nullable", encode f.nullable),
      ("default_value", encode f.defaultValue)]
  decode? j := do
    let [name, dataType, nullable, defaultValue] ←
      fields? ["name", "data_type", "nullable", "default_value"] j | none
    return ⟨← need name, ← need dataType, ← need nullable, ← may defaultValue⟩

instance : Wire Schema where
  encode s := .object [("version", encode s.version), ("fields", encode s.fields)]
  decode? j := do
    let [version, fields] ← fields? ["version", "fields"] j | none
    return ⟨← need version, ← need fields⟩

instance : Wire TagSchema where
  encode t := .object
    [("tag_id", encode t.id), ("tag_name", encode t.name), ("schema", encode t.schema)]
  decode? j := do
    let [id, name, schema] ← fields? ["tag_id", "tag_name", "schema"] j | none
    return ⟨← need id, ← need name, ← need schema⟩

instance : Wire EdgeSchema where
  encode e := .object
    [("edge_type", encode e.type), ("edge_name", encode e.name), ("schema", encode e.schema)]
  decode? j := do
    let [type, name, schema] ← fields? ["edge_type", "edge_name", "schema"] j | none
    return ⟨← need type, ← need name, ← need schema⟩

instance : Wire SchemaRef where
  encode
    | .tag id => .object [("Tag", encode id)]
    | .edge type => .object [("Edge", encode type)]
  decode?
    | .object [("Tag", j)] | .respelled [("Tag", j)] => (decode? j).map .tag
    | .object [("Edge", j)] | .respelled [("Edge", j)] => (decode? j).map .edge
    | _ => none

instance : Wire Index where
  encode i := .object
    [("index_id", encode i.id), ("index_name", encode i.name), ("schema_id", encode i.schema),
      ("schema_name", encode i.schemaName), ("fields", encode i.fields)]
  decode? j := do
    let [id, name, schema, schemaName, fields] ←
      fields? ["index_id", "index_name", "schema_id", "schema_name", "fields"] j | none
    return ⟨← need id, ← need name, ← need schema, ← need schemaName, ← need fields⟩

instance : Wire Status where
  encode s := .text s.name
  decode? j := do
    let name ← caseName? j
    Status.all.find? fun s => s.name == name

instance : Wire Role where
  encode
    | .graph => .text "graph"
    | .storage => .text "storage"
    | .metadata => .text "meta"
    | .tool => .text "tool"
  decode? j := do
    match ← caseName? j with
    | "graph" => some .graph
    | "storage" => some .storage
    | "meta" => some .metadata
    | "tool" => some .tool
    | _ => none

instance : Wire ConfigModule where
  encode
    | .graph => .text "graph"
    | .storage => .text "storage"
    | .metadata => .text "meta"
    | .all => .text "all"
  decode? j := do
    match ← caseName? j with
    | "graph" => some .graph
    | "storage" => some .storage
    | "meta" => some .metadata
    | "all" => some .all
    | _ => none

instance : Wire ConfigMode where
  encode
    | .immutable => .text "Immutable"
    | .mutable => .text "Mutable"
  decode? j := do
    match ← caseName? j with
    | "Immutable" => some .immutable
    | "Mutable" => some .mutable
    | _ => none

instance : Wire ConfigItem where
  encode c := .object
    [("module", encode c.scope), ("name", encode c.name), ("mode", encode c.mode),
      ("value", encode c.value)]
  decode? j := do
    let [scope, name, mode, value] ← fields? ["module", "name", "mode", "value"] j | none
    return ⟨← need scope, ← need name, ← need mode, ← need value⟩

instance : Wire LeaderInfo where
  encode l := .object [("part_id", encode l.part), ("term", encode l.term)]
  decode? j := do
    let [part, term] ← fields? ["part_id", "term"] j | none
    return ⟨← need part, ← need term⟩

instance : Wire HeartbeatRequest where
  encode r := .object
    [("host", encode r.host), ("role", encode r.role), ("cluster_id", encode r.clusterId),
      ("leader_parts", encode r.leaderParts), ("version", encode r.version)]
  decode? j := do
    let [host, role, clusterId, leaderParts, version] ←
      fields? ["host", "role", "cluster_id", "leader_parts", "version"] j | none
    return ⟨← need host, ← need role, ← need clusterId, ← may leaderParts, ← need version⟩

instance : Wire Heartbeat where
  encode h := .object
    [("cluster_id", encode h.clusterId), ("last_update_time_in_ms", encode h.lastUpdate)]
  decode? j := do
    let [clusterId, lastUpdate] ← fields? ["cluster_id", "last_update_time_in_ms"] j | none
    return ⟨← need clusterId, ← need lastUpdate⟩

instance : Wire SpaceName where
  encode s := .object [("space_id", encode s.id), ("space_name", encode s.name)]
  decode? j := do
    let [id, name] ← fields? ["space_id", "space_name"] j | none
    return ⟨← need id, ← need name⟩

/-- What a request about one space says: which one. -/
structure SpaceRequest where
  id : SpaceId
deriving DecidableEq, Repr

instance : Wire SpaceRequest where
  encode r := .object [("space_id", encode r.id)]
  decode? j := do
    let [id] ← fields? ["space_id"] j | none
    return ⟨← need id⟩

structure ConfigsRequest where
  scope : ConfigModule
deriving DecidableEq, Repr

instance : Wire ConfigsRequest where
  encode r := .object [("module", encode r.scope)]
  decode? j := do
    let [scope] ← fields? ["module"] j | none
    return ⟨← need scope⟩

instance : Wire HostStatus where
  encode
    | .online => .text "Online"
    | .offline => .text "Offline"
  decode? j := do
    match ← caseName? j with
    | "Online" => some .online
    | "Offline" => some .offline
    | _ => none

instance : Wire HostItem where
  encode h := .object
    [("host", encode h.host), ("status", encode h.status), ("leader_parts", encode h.leaderParts)]
  decode? j := do
    let [host, status, leaderParts] ← fields? ["host", "status", "leader_parts"] j | none
    return ⟨← need host, ← need status, ← need leaderParts⟩

instance : Wire MetaSettings where
  encode m := .object
    [("addrs", encode m.addresses), ("local_host", encode m.localHost), ("role", encode m.role),
      ("retry_count", encode m.retryCount), ("retry_interval_secs", encode m.retryIntervalSecs),
      ("heartbeat_interval_secs", encode m.heartbeatIntervalSecs),
      ("heartbeat_jitter_ms", encode m.heartbeatJitterMs),
      ("rpc_timeout_ms", encode m.rpcTimeoutMs), ("cluster_id_path", encode m.clusterIdPath),
      ("skip_config", encode m.skipConfig), ("ready_retry", encode m.readyRetry)]
  decode? j := do
    let [addresses, localHost, role, retryCount, retryInterval, heartbeatInterval, jitter, timeout,
        path, skipConfig, readyRetry] ←
      fields? ["addrs", "local_host", "role", "retry_count", "retry_interval_secs",
        "heartbeat_interval_secs", "heartbeat_jitter_ms", "rpc_timeout_ms", "cluster_id_path",
        "skip_config", "ready_retry"] j | none
    return ⟨← need addresses, ← need localHost, ← need role, ← need retryCount,
      ← need retryInterval, ← need heartbeatInterval, ← need jitter, ← need timeout, ← need path,
      ← need skipConfig, ← need readyRetry⟩

instance : Wire LogSettings where
  encode l := .object
    [("level", encode l.level), ("dir", encode l.dir), ("file", encode l.file),
      ("max_file_size", encode l.maxFileSize), ("max_files", encode l.maxFiles)]
  decode? j := do
    let [level, dir, file, maxFileSize, maxFiles] ←
      fields? ["level", "dir", "file", "max_file_size", "max_files"] j | none
    return ⟨← need level, ← need dir, ← need file, ← need maxFileSize, ← need maxFiles⟩

/-- Both sections may be left out, as a whole only; in a list, at its end. -/
instance : Wire Settings where
  encode s := .object [("meta", encode s.metadata), ("log", encode s.log)]
  decode? j := do
    let sections := match j with
      | .list items =>
        if items.length ≤ 2 then some [items[0]?, items[1]?] else none
      | j => fields? ["meta", "log"] j
    let [metadata, log] ← sections | none
    let section? {α : Type} [Wire α] (default : α) (field : Option Json) : Option α :=
      match field with
      | none => some default
      | some j => decode? j
    return ⟨← section? {} metadata, ← section? {} log⟩

end ClusterClient.Wire
