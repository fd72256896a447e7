import ClusterClient.Proofs.Wire.Lossless
import ClusterClient.Settings.File
import ClusterClient.Wire.Records
/-!
All records that are exchanged or configured keep what they are in their JSON form.
-/
namespace ClusterClient.Wire

open Json (spelled isOwnName)

instance : Lossless VidType 0 :=
  .cases (fun | .int64 => "Int64" | .fixedString => "FixedString")
    (fun v => by cases v <;> rfl) fun v => by cases v <;> rfl

instance : Lossless Role 0 :=
  .cases Settings.roleText (fun r => by cases r <;> rfl) fun r => by cases r <;> rfl

instance : Lossless ConfigModule 0 :=
  .cases (fun | .graph => "graph" | .storage => "storage" | .metadata => "meta" | .all => "all")
    (fun m => by cases m <;> rfl) fun m => by cases m <;> rfl

instance : Lossless ConfigMode 0 :=
  .cases (fun | .immutable => "Immutable" | .mutable => "Mutable")
    (fun m => by cases m <;> rfl) fun m => by cases m <;> rfl

instance : Lossless HostStatus 0 :=
  .cases (fun | .online => "Online" | .offline => "Offline")
    (fun s => by cases s <;> rfl) fun s => by cases s <;> rfl

instance : Lossless Status 0 :=
  .cases Status.name (fun _ => rfl) fun s => by cases s <;> rfl

instance : Lossless Host 1 :=
  .record ["host", "port"] (fun h => [encode h.name, encode h.port])

instance : Lossless PartHosts 3 :=
  .record ["space_id", "part_id", "hosts"]
    (fun p => [encode p.space, encode p.part, encode p.hosts])

instance : Lossless SpaceDesc 1 :=
  .record ["space_name", "partition_num", "replica_factor", "vid_type", "vid_len"]
    (fun d => [encode d.name, encode d.partitionNum, encode d.replicaFactor, encode d.vidType,
      encode d.vidLen])

instance : Lossless FieldDef 1 :=
  .record ["name", "data_type", "nullable", "default_value"]
    (fun f => [encode f.name, encode f.dataType, encode f.nullable, encode f.defaultValue])

instance : Lossless Schema 3 :=
  .record ["version", "fields"]
    (fun s => [encode s.version, encode s.fields])

instance : Lossless TagSchema 4 :=
  .record ["tag_id", "tag_name", "schema"]
    (fun t => [encode t.id, encode t.name, encode t.schema])

instance : Lossless EdgeSchema 4 :=
  .record ["edge_type", "edge_name", "schema"]
    (fun e => [encode e.type, encode e.name, encode e.schema])

instance : Lossless SchemaRef 1 where
  within
    | .tag id => within_object (by simp [within_encode])
    | .edge type => within_object (by simp [within_encode])
  decode_spelled
    | .tag id => by
      have plain : (encode (SchemaRef.tag id)).spelled = .object [("Tag", (encode id).spelled)] :=
        asObject_own (List.forall_mem_singleton.mpr (show isOwnName "Tag" = true by decide))
      rw [plain]
      exact congrArg (Option.map SchemaRef.tag) (Lossless.decode_spelled id)
    | .edge type => by
      have plain : (encode (SchemaRef.edge type)).spelled =
          .object [("Edge", (encode type).spelled)] :=
        asObject_own (List.forall_mem_singleton.mpr (show isOwnName "Edge" = true by decide))
      rw [plain]
      exact congrArg (Option.map SchemaRef.edge) (Lossless.decode_spelled type)

instance : Lossless Index 3 :=
  .record ["index_id", "index_name", "schema_id", "schema_name", "fields"]
    (fun i => [encode i.id, encode i.name, encode i.schema, encode i.schemaName, encode i.fields])

instance : Lossless LeaderInfo 1 :=
  .record ["part_id", "term"] (fun l => [encode l.part, encode l.term])

instance : Lossless HeartbeatRequest 4 :=
  .record ["host", "role", "cluster_id", "leader_parts", "version"]
    (fun r => [encode r.host, encode r.role, encode r.clusterId, encode r.leaderParts,
      encode r.version])

instance : Lossless Heartbeat 1 :=
  .record ["cluster_id", "last_update_time_in_ms"]
    (fun h => [encode h.clusterId, encode h.lastUpdate])

instance : Lossless SpaceName 1 :=
  .record ["space_id", "space_name"]
    (fun s => [encode s.id, encode s.name])

instance : Lossless SpaceRequest 1 :=
  .record ["space_id"] (fun r => [encode r.id])

instance : Lossless ConfigsRequest 1 :=
  .record ["module"] (fun r => [encode r.scope])

instance : Lossless HostItem 3 :=
  .record ["host", "status", "leader_parts"]
    (fun h => [encode h.host, encode h.status, encode h.leaderParts])

/-- The partitions that a host leads may be told in any form they have. -/
theorem stands_hostItem {h : HostItem} {j : Json} (parts : Stands 2 j h.leaderParts) :
    Stands 3 (.object
      [("host", encode h.host), ("status", encode h.status), ("leader_parts", j)]) h := by
  refine .record ["host", "status", "leader_parts"] [encode h.host, encode h.status, j] ?_ ?_
  · simp [within_encode, parts.within]
  · exact fun _ found => (found _).trans (by simp [need, parts.decode_spelled])

theorem stands_heartbeatRequest {r : HeartbeatRequest} {j : Json}
    (parts : Stands 3 j r.leaderParts) :
    Stands 4 (.object
      [("host", encode r.host), ("role", encode r.role), ("cluster_id", encode r.clusterId),
        ("leader_parts", j), ("version", encode r.version)]) r := by
  refine .record ["host", "role", "cluster_id", "leader_parts", "version"]
    [encode r.host, encode r.role, encode r.clusterId, j, encode r.version] ?_ ?_
  · simp [within_encode, parts.within]
  · exact fun _ found => (found _).trans (by simp [may, parts.decode_spelled])

instance : Lossless MetaSettings 1 :=
  .record ["addrs", "local_host", "role", "retry_count", "retry_interval_secs",
    "heartbeat_interval_secs", "heartbeat_jitter_ms", "rpc_timeout_ms", "cluster_id_path",
    "skip_config", "ready_retry"]
    (fun m => [encode m.addresses, encode m.localHost, encode m.role, encode m.retryCount,
      encode m.retryIntervalSecs, encode m.heartbeatIntervalSecs, encode m.heartbeatJitterMs,
      encode m.rpcTimeoutMs, encode m.clusterIdPath, encode m.skipConfig, encode m.readyRetry])

instance : Lossless LogSettings 1 :=
  .record ["level", "dir", "file", "max_file_size", "max_files"]
    (fun l => [encode l.level, encode l.dir, encode l.file, encode l.maxFileSize,
      encode l.maxFiles])

instance : Lossless Settings 2 :=
  .record ["meta", "log"] (fun s => [encode s.metadata, encode s.log])

end ClusterClient.Wire
