import ClusterClient.Client
/-!
The steps of a client. A step takes a task from one point where it waits to the
next; which task is taken and what the meta service answers is up to the events,
and nothing else can come between. Events that do not fit are ignored.
-/
namespace ClusterClient

inductive Operation
  | start
  | stop (clear : Bool)
  | refresh
  | loadData
  | loadConfig
  | heartbeat
  | ask (query : Query) (request : Request)

inductive Event
  /-- A new task is begun. -/
  | invoke (op : Operation)
  /-- A call that is due is made. -/
  | call (t : TaskId) (q : Query)
  | answer (t : TaskId) (q : Query) (choice : Nat) (outcome : Except Fault (MetaReply q.Value))
  /-- The pause after a failed attempt is over. -/
  | wake (t : TaskId) (q : Query)
  /-- What a task waited for has come about: its turn, the end of a rest, or the end
  of the background task. -/
  | resume (t : TaskId)

/-- What a group of calls leads to. -/
inductive Progress
  | more (w : Work)
  | ended (result : Except Fault Payload)

namespace Client

/-- After data and configuration are loaded, the caches take account of all
changes up to the time that the heartbeat told. -/
def settled (c : Client) (w : Work) : Client × Progress :=
  (match w.remote with
    | some time => { c with watermark := time }
    | none => c,
    .ended (.ok .nothing))

def loaded (c : Client) (job : Job) (w : Work) : Client × Progress :=
  if job = .loadData then (c, .ended (.ok .nothing))
  else if c.options.skipConfig then c.settled w
  else (c, .more (.begin w.remote (.configs c.options.role.configModule)))

def spaceBuilt (c : Client) (job : Job) (w : Work) (hosts : List HostItem)
    (built : List Space) : List SpaceId → Client × Progress
  | [] => (c.install (.ofList built) hosts).loaded job w
  | id :: rest => (c, .more (.begin w.remote (.space id rest built hosts)))

def beaten (c : Client) (job : Job) (hb : Heartbeat) : Client × Progress :=
  match c.adopt hb.clusterId with
  | (c, .error e) => (c, .ended (.error e))
  | (c, .ok ()) =>
    match job with
    | .heartbeat => (c, .ended (.ok (.value .heartbeat hb)))
    | .start _ => (c, .more (.begin (some hb.lastUpdate) .listing))
    | _ =>
      if hb.lastUpdate ≤ c.watermark then (c, .ended (.ok .nothing))
      else (c, .more (.begin (some hb.lastUpdate) .listing))

/-- Goes on to the next group when all calls of one have been answered. -/
def advance (c : Client) (job : Job) (w : Work) : Client × Progress :=
  match w.stage with
  | .beat _ =>
    match w.slots .heartbeat with
    | .done hb => c.beaten job hb
    | _ => (c, .more w)
  | .listing =>
    match w.slots .spaces, w.slots .hosts with
    | .done spaces, .done hosts =>
      c.spaceBuilt job w hosts [] (List.map SpaceName.id spaces)
    | _, _ => (c, .more w)
  | .space id rest built hosts =>
    match w.slots .desc, w.slots .parts, w.slots .tags, w.slots .edges, w.slots .tagIndexes,
      w.slots .edgeIndexes with
    | .done desc, .done parts, .done tags, .done edges, .done tagIndexes, .done edgeIndexes =>
      -- with an array too long for any memory the task would break off here
      let space := Space.build id { desc, parts, tags, edges, tagIndexes, edgeIndexes }
      c.spaceBuilt job w hosts (built ++ [space]) rest
    | _, _, _, _, _, _ => (c, .more w)
  | .configs _ =>
    match w.slots .configs with
    | .done items => (c.configure items).settled w
    | _ => (c, .more w)
  | .ask q _ =>
    match w.slots q with
    | .done v => (c, .ended (.ok (.value q v)))
    | _ => (c, .more w)

/-- Ends a cycle; the next one in line has its turn. -/
def release (c : Client) : Client :=
  { c with holder := c.waiting.head?, waiting := c.waiting.tail }

def spawnBackground (c : Client) : Client :=
  let t := c.nextTask
  let c := { c with nextTask := t + 1, background := some t, phase := .running }
  c.stand t (.background false) .resting

/-- A probe that failed is tried again unless that is one too many. -/
def probed (c : Client) (t : TaskId) (failed : Nat) :
    Except Fault Payload → Client
  | .ok _ =>
    if c.phase = .probing then c.spawnBackground.finish t (.start failed) (.ok .nothing)
    else c.finish t (.start failed) (.error (.notReady .stopped))
  | .error e =>
    let c := c.report e
    let failed := failed + 1
    let allowed := c.options.readyRetry.toInt
    if 0 ≤ allowed ∧ max allowed 1 ≤ failed then
      { c with phase := .created }.finish t (.start failed)
        (.error (.notReady (.unavailable failed e.message)))
    else c.stand t (.start failed) .resting

def conclude (c : Client) (t : TaskId) (job : Job) (result : Except Fault Payload) :
    Client :=
  match job with
  | .heartbeat | .ask => c.finish t job result
  | .start failed => c.release.probed t failed result
  | .refresh =>
    let c := match result with
      | .error e => c.report e
      | .ok _ => c
    c.release.finish t job (.ok .nothing)
  | .background told =>
    let c := match result with
      | .error e => c.report e
      | .ok _ => c
    if told then c.release.finish t job (.ok .nothing) else c.release.stand t job .resting
  | .loadData | .loadConfig => c.release.finish t job result
  | .stop _ => c

def proceed (c : Client) (t : TaskId) (job : Job) : Progress → Client
  | .more w => c.stand t job (.working w)
  | .ended result => c.conclude t job result

def firstStage (c : Client) : Job → Stage
  | .start _ | .refresh | .background _ =>
    if c.options.role = .tool then .listing else .beat c.heartbeatRequest
  | .heartbeat => .beat c.heartbeatRequest
  | .loadConfig => .configs c.options.role.configModule
  | .loadData | .ask | .stop _ => .listing

/-- A task has its turn. -/
def enter (c : Client) (t : TaskId) (job : Job) : Client :=
  match job with
  | .stop clear =>
    let c := c.release.finish t job (.ok .nothing)
    if clear then
      { c with directory := .empty, estimates := { c.estimates with leaders := ∅ } }
    else c
  | _ =>
    if c.stopped then c.conclude t job (.error (.notReady .stopped))
    else c.stand t job (.working (.begin none (c.firstStage job)))

/-- Takes its turn at once if nobody else is at it, and gets in line if not. -/
def queue (c : Client) (t : TaskId) (job : Job) : Client :=
  match c.holder with
  | none => { c with holder := some t }.enter t job
  | some _ => { c with waiting := c.waiting ++ [t] }.stand t job .queued

def tellBackground (c : Client) (t : TaskId) : Client :=
  match c.task? t with
  | some ⟨.background _, standing⟩ => c.stand t (.background true) standing
  | _ => c

def invoke (c : Client) (op : Operation) : Client :=
  let t := c.nextTask
  let c := { c with nextTask := t + 1 }
  match op with
  | .start =>
    match c.phase with
    | .created => { c with phase := .probing }.queue t (.start 0)
    | .running => c.finish t (.start 0) (.ok .nothing)
    | .probing => c.finish t (.start 0) (.error (.notReady .probing))
    | .stopped => c.finish t (.start 0) (.error (.notReady .stopped))
  | .stop clear =>
    let background := c.background
    let c := { c with phase := .stopped, stopped := true, background := none }
    match background with
    | some b => (c.tellBackground b).stand t (.stop clear) (.joining b)
    | none => c.queue t (.stop clear)
  | .refresh =>
    match c.phase with
    | .created | .running => c.queue t .refresh
    | .probing | .stopped => c.finish t .refresh (.ok .nothing)
  | .loadData => c.queue t .loadData
  | .loadConfig => c.queue t .loadConfig
  | .heartbeat => c.stand t .heartbeat (.working (.begin none (c.firstStage .heartbeat)))
  | .ask q request => c.stand t .ask (.working (.begin none (.ask q request)))

def isOver (c : Client) (t : TaskId) : Bool :=
  match c.task? t with
  | none | some ⟨_, .done _⟩ => true
  | some _ => false

def resume (c : Client) (t : TaskId) : Client :=
  match c.task? t with
  | some ⟨job, .queued⟩ => if c.holder = some t then c.enter t job else c
  | some ⟨.background true, .resting⟩ => c.finish t (.background true) (.ok .nothing)
  | some ⟨job, .resting⟩ => c.queue t job
  | some ⟨job, .joining b⟩ => if c.isOver b then c.queue t job else c
  | _ => c

def setSlot (c : Client) (t : TaskId) (job : Job) (w : Work) (q : Query)
    (slot : Slot q.Value) : Client :=
  c.stand t job (.working { w with slots := w.slots.set q slot })

def call (c : Client) (t : TaskId) (q : Query) : Client :=
  match c.task? t with
  | some ⟨job, .working w⟩ =>
    match w.slots q with
    | .idle =>
      if q ∈ w.stage.queries then
        let s := Sending.toMetaService q.method true c.estimates.metaLeader
        { c with estimates := s.attempt c.estimates }.setSlot t job w q (.calling s)
      else c
    | _ => c
  | _ => c

def answer (c : Client) (t : TaskId) (q : Query) (choice : Nat)
    (outcome : Except Fault (MetaReply q.Value)) : Client :=
  match c.task? t with
  | some ⟨job, .working w⟩ =>
    match w.slots q with
    | .calling s =>
      let (estimates, turn) :=
        s.receive c.options.retryCount c.options.retryInterval c.directory.catalog choice
          c.estimates outcome
      let c := { c with estimates }
      match turn with
      | .resend s => c.setSlot t job w q (.calling s)
      | .pause interval s => c.setSlot t job w q (.pausing interval s)
      | .finish (.error e) => c.conclude t job (.error e)
      | .finish (.ok reply) =>
        match reply.toExcept with
        | .error e => c.conclude t job (.error e)
        | .ok v =>
          let (c, progress) := c.advance job { w with slots := w.slots.set q (.done v) }
          c.proceed t job progress
    | _ => c
  | _ => c

def wake (c : Client) (t : TaskId) (q : Query) : Client :=
  match c.task? t with
  | some ⟨job, .working w⟩ =>
    match w.slots q with
    | .pausing _ s => { c with estimates := s.attempt c.estimates }.setSlot t job w q (.calling s)
    | _ => c
  | _ => c

def step (c : Client) : Event → Client
  | .invoke op => c.invoke op
  | .call t q => c.call t q
  | .answer t q choice outcome => c.answer t q choice outcome
  | .wake t q => c.wake t q
  | .resume t => c.resume t

def run (c : Client) (events : List Event) : Client := events.foldl step c

end Client

end ClusterClient
