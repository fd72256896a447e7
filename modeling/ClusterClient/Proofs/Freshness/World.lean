import ClusterClient.Proofs.Client.Moves
/-!
A client together with a meta service whose data change while the client reads them.
Every change moves the time of the last update on, and every call is answered from the
data that are in force when it is served.
-/
namespace ClusterClient

/-- The data of the meta service. -/
structure Store where
  /-- The time of the last change. -/
  time : Int64
  names : List SpaceName
  data : SpaceId → Option SpaceData
  configs : ConfigModule → List ConfigItem

namespace Store

variable (s : Store)

def spaces (ids : List SpaceId) : List Space :=
  ids.filterMap fun id => (s.data id).map (Space.build id)

def catalog : Catalog := .ofList (s.spaces (s.names.map SpaceName.id))

/-- What a client has that takes account of all changes. -/
def directory (scope : ConfigModule) : Directory := ⟨s.catalog, .ofList (s.configs scope)⟩

/-- The answers that the data allow. Nothing is said of cluster ids and of hosts, which
may change at any time. -/
def Answers (request : Request) : (q : Query) → q.Value → Prop
  | .heartbeat, hb => Heartbeat.lastUpdate hb = s.time
  | .spaces, names => names = s.names
  | .hosts, _ => True
  | .desc, v => ∃ id data, request = .ofSpace .desc id ∧ s.data id = some data ∧ v = data.desc
  | .parts, v => ∃ id data, request = .ofSpace .parts id ∧ s.data id = some data ∧ v = data.parts
  | .tags, v => ∃ id data, request = .ofSpace .tags id ∧ s.data id = some data ∧ v = data.tags
  | .edges, v => ∃ id data, request = .ofSpace .edges id ∧ s.data id = some data ∧ v = data.edges
  | .tagIndexes, v => ∃ id data,
      request = .ofSpace .tagIndexes id ∧ s.data id = some data ∧ v = data.tagIndexes
  | .edgeIndexes, v => ∃ id data,
      request = .ofSpace .edgeIndexes id ∧ s.data id = some data ∧ v = data.edgeIndexes
  | .configs, items => ∃ scope, request = .configs scope ∧ items = s.configs scope

end Store

deriving instance DecidableEq for Request

/-- What a task is asking for at present. -/
def Client.asks (c : Client) (t : TaskId) (q : Query) : Option Request :=
  match c.task? t with
  | some ⟨_, .working w⟩ =>
    match w.slots q with
    | .calling _ => some (w.stage.request q)
    | _ => none
  | _ => none

theorem Client.asks_cases {c : Client} {t : TaskId} {q : Query} {request : Request}
    (h : c.asks t q = some request) :
    ∃ job w s, c.task? t = some ⟨job, .working w⟩ ∧ w.slots q = .calling s ∧
      w.stage.request q = request := by
  unfold asks at h
  split at h
  · rename_i job w task
    split at h
    · rename_i s slot
      exact ⟨job, w, s, task, slot, Option.some.inj h⟩
    · cases h
  · cases h

/-- An answer that is under way to the task that asked. -/
structure Coming where
  task : TaskId
  query : Query
  value : query.Value

structure World where
  server : Store
  client : Client
  coming : List Coming

namespace World

/-- The answers under way after an event of the client. What is asked again has not been
answered yet, and an answer comes at most once. -/
def left (w : World) : Event → List Coming
  | .call t q | .wake t q | .answer t q _ _ =>
    w.coming.filter fun r => ¬ (r.task = t ∧ r.query = q)
  | _ => w.coming

/-- What can happen next. A call may fail for any reason, whether it was served or not,
but it succeeds only with what it was served. -/
inductive Next : World → World → Prop
  | changes (w : World) (store : Store) (later : w.server.time < store.time) :
    Next w { w with server := store }
  | serves (w : World) {t : TaskId} {q : Query} {request : Request}
      (asked : w.client.asks t q = some request) (v : q.Value)
      (answers : w.server.Answers request q v) :
    Next w { w with coming := ⟨t, q, v⟩ :: w.coming }
  | acts (w : World) (e : Event)
      (heard : ∀ t q choice leader v, e = .answer t q choice (.ok ⟨.succeeded, leader, v⟩) →
        ⟨t, q, v⟩ ∈ w.coming) :
    Next w { w with client := w.client.step e, coming := w.left e }

/-- What may come about around a client with these options. -/
inductive Reached (options : Options) : World → Prop
  | start {path : String} {listening : Bool} {choice : Nat} {disk : FileTree} {client : Client}
      (created : Client.create options path listening choice disk = .ok client)
      (server : Store) : Reached options ⟨server, client, []⟩
  | next {w w' : World} (h : Reached options w) (step : Next w w') : Reached options w'

end World

end ClusterClient
