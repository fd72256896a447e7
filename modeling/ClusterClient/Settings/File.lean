import ClusterClient.ClusterIdFile
import ClusterClient.Settings
import ClusterClient.Toml.Reader
import ClusterClient.Toml.Writer
/-!
The file that settings are kept in. Of the two sections each may be left out; one
that is there has all its entries, and others are passed over.
-/
namespace ClusterClient

namespace Toml

def text? : Toml → Option String
  | scalar (.text s) => some s
  | _ => none

def bool? : Toml → Option Bool
  | scalar (.bool b) => some b
  | _ => none

def bounded? {α : Type} (low high : Int) (make : Int → α) : Toml → Option α
  | scalar (.int n) => if low ≤ n ∧ n ≤ high then some (make n) else none
  | _ => none

def uint64? : Toml → Option UInt64 := bounded? 0 (UInt64.size - 1) fun n => n.toNat.toUInt64

def int32? : Toml → Option Int32 := bounded? Int32.minValue.toInt Int32.maxValue.toInt Int32.ofInt

/-- The case that a value names: by itself, or as the only entry of a table, and
then with nothing in it. -/
def caseName? : Toml → Option String
  | scalar (.text s) => some s
  | table [(s, table [])] | table [(s, list [])] => some s
  | _ => none

/-- The entries with the given names, each of them if it is there. A list gives
them in order, and what comes after them is not looked at. -/
def fields? (names : List String) : Toml → Option (List (Option Toml))
  | table entries =>
    if entries.all fun e => names.contains e.1 || e.2.isUsable then
      some (names.map fun name => entries.lookup name)
    else none
  | list items => some ((List.range names.length).map fun i => items[i]?)
  | _ => none

end Toml

namespace Settings

def roleText : Role → String
  | .graph => "graph"
  | .storage => "storage"
  | .metadata => "meta"
  | .tool => "tool"

def role? (t : Toml) : Option Role := do
  match ← t.caseName? with
  | "graph" => some .graph
  | "storage" => some .storage
  | "meta" => some .metadata
  | "tool" => some .tool
  | _ => none

def metaSection (m : MetaSettings) : Toml.Section where
  name := "meta"
  entries :=
    [("addrs", .text m.addresses), ("local_host", .text m.localHost),
      ("role", .text (roleText m.role)), ("retry_count", .int m.retryCount.toNat),
      ("retry_interval_secs", .int m.retryIntervalSecs.toNat),
      ("heartbeat_interval_secs", .int m.heartbeatIntervalSecs.toNat),
      ("heartbeat_jitter_ms", .int m.heartbeatJitterMs.toNat),
      ("rpc_timeout_ms", .int m.rpcTimeoutMs.toNat), ("cluster_id_path", .text m.clusterIdPath),
      ("skip_config", .bool m.skipConfig), ("ready_retry", .int m.readyRetry.toInt)]

def logSection (l : LogSettings) : Toml.Section where
  name := "log"
  entries :=
    [("level", .text l.level), ("dir", .text l.dir), ("file", .text l.file),
      ("max_file_size", .int l.maxFileSize.toNat), ("max_files", .int l.maxFiles.toNat)]

def ofMetaSection? (t : Toml) : Option MetaSettings := do
  let [addresses, localHost, role, retryCount, retryInterval, heartbeatInterval, jitter, timeout,
      path, skipConfig, readyRetry] ←
    t.fields? ["addrs", "local_host", "role", "retry_count", "retry_interval_secs",
      "heartbeat_interval_secs", "heartbeat_jitter_ms", "rpc_timeout_ms", "cluster_id_path",
      "skip_config", "ready_retry"] | none
  return ⟨← (← addresses).text?, ← (← localHost).text?, ← role? (← role), ← (← retryCount).uint64?,
    ← (← retryInterval).uint64?, ← (← heartbeatInterval).uint64?, ← (← jitter).uint64?,
    ← (← timeout).uint64?, ← (← path).text?, ← (← skipConfig).bool?, ← (← readyRetry).int32?⟩

def ofLogSection? (t : Toml) : Option LogSettings := do
  let [level, dir, file, maxFileSize, maxFiles] ←
    t.fields? ["level", "dir", "file", "max_file_size", "max_files"] | none
  return ⟨← (← level).text?, ← (← dir).text?, ← (← file).text?, ← (← maxFileSize).uint64?,
    ← (← maxFiles).uint64?⟩

def ofToml? (t : Toml) : Option Settings := do
  let [metadata, log] ← t.fields? ["meta", "log"] | none
  return ⟨← metadata.elim (some {}) ofMetaSection?, ← log.elim (some {}) ofLogSection?⟩

def print (s : Settings) : String :=
  String.ofList (Toml.writeSections [metaSection s.metadata, logSection s.log])

def parse? (text : String) : Option Settings := (Toml.parse? text).bind ofToml?

def save (s : Settings) (path : Path) (disk : FileTree) : Except Fault FileTree :=
  (disk.write path s.print.toUTF8.data.toList).mapError Fault.disk

def load (disk : FileTree) (path : Path) : Except Fault Settings :=
  match disk.read path with
  | .error e => .error (.disk e)
  | .ok bytes =>
    match ClusterIdFile.utf8? bytes with
    | none => .error (.disk .notText)
    | some cs =>
      match parse? (String.ofList cs) with
      | none => .error (.config .malformed)
      | some s => .ok s

end Settings

end ClusterClient
