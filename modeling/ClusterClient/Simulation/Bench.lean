import ClusterClient.Client.Step
import ClusterClient.Simulation.MetaService
/-!
A client among scripted services, in virtual time. The clock stands still while
anything can go on, and then jumps to the earliest alarm. A client that was replaced
by another one still ends what it is at. The clients are numbered, and one of them has
the turn.
-/
namespace ClusterClient.Simulation

/-- What may be waited for: an answer or the end of a pause of a call that a task
makes, the end of a task's rest, something in a strand of the play itself, or the
answer to a call of a scattered request. -/
inductive Alarm
  | slot (t : TaskId) (q : Query)
  | task (t : TaskId)
  | strand (i : Nat)
  | flight (i ticket : Nat)
deriving DecidableEq, Repr

/-- What has come when an alarm goes off. -/
inductive Due
  | ready
  | timeout
deriving DecidableEq, Repr

structure Timer where
  deadline : Nat
  alarm : Alarm
  due : Due

/-- A scattered request, with the outcomes of its calls that were not taken yet. -/
structure ScatterRun where
  client : Nat
  state : Scatter Int64 Items
  outcomes : List (Nat × Except Fault (StorageReply Items))

structure Bench where
  now : Nat
  /-- The client that has the turn, and its number. -/
  client : Client
  turn : Nat
  /-- The client that actions are begun with. -/
  present : Nat
  others : Table Nat Client
  storage : Storage
  service : MetaService
  /-- By deadline, and those of one deadline in the order in which they were set. -/
  timers : List Timer
  fired : List (Alarm × Due)
  scatters : Table Nat ScatterRun
  /-- The calls and tasks that go on beside the strands, in the order of their turns. -/
  beside : List Alarm
  held : Table String Space
  known : Table (SpaceId × PartId) Unit
  /-- What of the notices and fatal faults was shown already. -/
  noticesShown : Nat
  fatalShown : Nat

structure Observation where
  phase : Phase
  watermark : Int64
  clusterId : ClusterId
  spaces : List SpaceId
  leaders : Nat
  metaLeader : Host
  now : Nat
  notices : List Notice
  calls : List (String × Host)
  fatal : List Fault

namespace Bench

def start (client : Client) : Bench where
  now := 0
  client
  turn := 0
  present := 0
  others := ∅
  storage := .empty
  service := .empty
  timers := []
  fired := []
  scatters := ∅
  beside := []
  held := ∅
  known := ∅
  noticesShown := 0
  fatalShown := 0

/-- All clients work on the same disk, and have the same listener. -/
def sharing (c other : Client) : Client :=
  { c with
    disk := other.disk
    led := other.led
    notices := other.notices
    fatal := other.fatal
    nextTask := other.nextTask }

/-- Gives a client the turn. -/
def turnTo (b : Bench) (number : Nat) : Bench :=
  match b.others.get? number with
  | none => b
  | some c =>
    { b with
      client := sharing c b.client
      turn := number
      others := (b.others.erase number).insert b.turn b.client }

def turnBack (b : Bench) : Bench := b.turnTo b.present

/-- Puts another client in the place of the present one. -/
def restart (b : Bench) (client : Client) : Bench :=
  let number := b.present + 1
  { b with others := b.others.insert number client, present := number }.turnBack

/-- The client whose task this is. -/
def ownerOf (b : Bench) (t : TaskId) : Nat :=
  if (b.client.task? t).isSome then b.turn
  else match b.others.entries.find? fun e => (e.2.task? t).isSome with
    | some e => e.1
    | none => b.turn

def task? (b : Bench) (t : TaskId) : Option Task := (b.turnTo (b.ownerOf t)).client.task? t

/-- Forgets a task whose result was taken. -/
def dismiss (b : Bench) (t : TaskId) : Bench :=
  let b := b.turnTo (b.ownerOf t)
  { b with client := b.client.dismiss t }.turnBack

/-- Ends the background tasks of the clients that nobody needs any more. -/
def release (b : Bench) (needed : List Nat) : Bench :=
  { b with others := b.others.mapValues fun number c =>
      if needed.contains number then c else c.background.elim c c.tellBackground }

/-- The notices that were not shown yet. -/
def observeNotices (b : Bench) : Bench × List Notice :=
  ({ b with noticesShown := b.client.notices.length }, b.client.notices.drop b.noticesShown)

def observe (b : Bench) : Bench × Observation :=
  let c := b.client
  ({ b with
      noticesShown := c.notices.length
      fatalShown := c.fatal.length
      service := { b.service with calls := [] } },
    { phase := c.phase
      watermark := c.watermark
      clusterId := c.clusterId
      spaces := c.directory.catalog.spaceIds
      leaders := c.estimates.leaders.size
      metaLeader := c.estimates.metaLeader.leader
      now := b.now
      notices := c.notices.drop b.noticesShown
      calls := b.service.calls
      fatal := c.fatal.drop b.fatalShown })

def takeCalls (b : Bench) : Bench × List (Host × List PartId) :=
  ({ b with storage := { b.storage with calls := [] } }, b.storage.calls)

def knowPairs (b : Bench) (pairs : List (SpaceId × PartId)) : Bench :=
  { b with known := b.known.insertAll (pairs.map fun p => (p, ())) }

/-- Every part of the present catalog, and every pair that was named before. -/
def knownLeaders (b : Bench) : Bench × List ((SpaceId × PartId) × Host) :=
  let parts := b.client.directory.catalog.spaces.entries.flatMap fun (id, s) =>
    s.parts.keys.map fun part => (id, part)
  let b := b.knowPairs parts
  let leaders := b.client.estimates.leaders
  (b, b.known.keys.filterMap fun p => (leaders.get? p).map fun h => (p, h))

def insertTimer (t : Timer) : List Timer → List Timer
  | [] => [t]
  | u :: rest => if t.deadline < u.deadline then t :: u :: rest else u :: insertTimer t rest

/-- Nothing waits for longer than thirty years of 365 days. -/
def longest : Nat := 30 * 365 * 24 * 3600 * 1000

def setTimer (b : Bench) (after : Nat) (alarm : Alarm) (due : Due) : Bench :=
  { b with timers := insertTimer ⟨b.now + min after longest, alarm, due⟩ b.timers }

def isSet (b : Bench) (alarm : Alarm) : Bool := b.timers.any fun t => t.alarm == alarm

/-- Whether an alarm has gone off; that can be found only once. -/
def takeFired (b : Bench) (alarm : Alarm) : Option (Due × Bench) :=
  match b.fired.lookup alarm with
  | some due => some (due, { b with fired := b.fired.filter fun e => e.1 != alarm })
  | none => none

def isBackground (b : Bench) (t : TaskId) : Bool :=
  match b.task? t with
  | some ⟨.background _, _⟩ => true
  | _ => false

/-- The turn that an alarm gives, if it is not one of a strand. -/
def turnOf (b : Bench) : Alarm → Option Alarm
  | .slot t _ | .task t => if b.isBackground t then some (.task t) else none
  | .strand _ => none
  | .flight i ticket => some (.flight i ticket)

def line (b : Bench) (turn : Alarm) : Bench :=
  if turn ∈ b.beside then b else { b with beside := b.beside ++ [turn] }

/-- The clock jumps, and all alarms of that time go off; none if none is set. -/
def jump? (b : Bench) : Option Bench :=
  match b.timers with
  | [] => none
  | first :: _ =>
    let (gone, timers) := b.timers.partition fun t => t.deadline ≤ first.deadline
    let b := { b with
      now := max b.now first.deadline
      timers
      fired := b.fired ++ gone.map fun t => (t.alarm, t.due) }
    some (gone.foldl (fun b t => (b.turnOf t.alarm).elim b b.line) b)

/-- The alarms of calls that are not under way any more are cleared. -/
def forgetCalls (b : Bench) (t : TaskId) : Bench :=
  let alive : Alarm → Bool := fun alarm =>
    match alarm with
    | .slot t' q =>
      t' != t || (match b.client.task? t with
        | some ⟨_, .working w⟩ =>
          (match w.slots q with
          | .calling _ | .pausing .. => true
          | _ => false)
        | _ => false)
    | _ => true
  { b with
    timers := b.timers.filter fun u => alive u.alarm
    fired := b.fired.filter fun e => alive e.1 }

/-- What comes of a call that is answered after this time, and when. -/
def awaited (b : Bench) (delay : Nat) : Nat × Due :=
  let limit := min b.client.options.rpcTimeout longest
  if min delay longest ≤ limit then (delay, .ready) else (limit, .timeout)

def isRefused (b : Bench) (host : Host) (due : Due) : Option Fault :=
  match due with
  | .timeout => some (.rpcFailed (.timedOut host b.client.options.rpcTimeout))
  | .ready => none

/-- The answer to the call that a task makes has come, or will not come. -/
def deliver (b : Bench) (t : TaskId) (q : Query) (w : Work) (host : Host) (due : Due) : Bench :=
  let (service, outcome) := match b.isRefused host due with
    | some fault => (b.service, .error fault)
    | none => b.service.answer q (w.stage.request q) host
  ({ b with service, client := b.client.answer t q 0 outcome }).forgetCalls t

/-- Goes on with one call of a task, if that is possible. -/
def actSlot (b : Bench) (t : TaskId) (w : Work) (q : Query) : Option Bench :=
  match w.slots q with
  | .idle => some { b with client := b.client.call t q }
  | .calling s =>
    match b.takeFired (.slot t q) with
    | some (due, b) => some (b.deliver t q w s.host due)
    | none =>
      if b.isSet (.slot t q) then none
      else
        let (service, delay) := b.service.accept q s.host
        let b := { b with service }
        let (after, due) := b.awaited delay
        if after = 0 then some (b.deliver t q w s.host due)
        else some (b.setTimer after (.slot t q) due)
  | .pausing interval _ =>
    match b.takeFired (.slot t q) with
    | some (_, b) => some { b with client := b.client.wake t q }
    | none =>
      if b.isSet (.slot t q) then none
      else if interval = 0 then some { b with client := b.client.wake t q }
      else some (b.setTimer interval (.slot t q) .ready)
  | .done _ => none

/-- Goes on with a task of the client that has the turn. -/
def actOwn (b : Bench) (t : TaskId) : Option Bench :=
  match b.client.task? t with
  | none | some ⟨_, .done _⟩ => none
  | some ⟨_, .queued⟩ =>
    if b.client.holder = some t then some { b with client := b.client.resume t } else none
  | some ⟨_, .joining u⟩ =>
    if b.client.isOver u then some { b with client := b.client.resume t } else none
  | some ⟨.background true, .resting⟩ => some { b with client := b.client.resume t }
  | some ⟨job, .resting⟩ =>
    match b.takeFired (.task t) with
    | some (_, b) => some { b with client := b.client.resume t }
    | none =>
      if b.isSet (.task t) then none
      else
        let rest := match job with
          | .background _ => b.client.options.heartbeatInterval
          | _ => b.client.options.retryInterval
        if rest = 0 then some { b with client := b.client.resume t }
        else some (b.setTimer rest (.task t) .ready)
  | some ⟨_, .working w⟩ => w.stage.queries.findSome? (b.actSlot t w)

/-- Goes on with a task by one step, if that is possible. -/
def actTask (b : Bench) (t : TaskId) : Option Bench :=
  ((b.turnTo (b.ownerOf t)).actOwn t).map turnBack

/-- Goes on with a task as far as possible; tells whether it got anywhere. -/
def pursue : Nat → Bool → Bench → TaskId → Bool × Bench
  | 0, moved, b, _ => (moved, b)
  | fuel + 1, moved, b, t =>
    match b.actTask t with
    | some b => pursue fuel true b t
    | none => (moved, b)

def dispatchNew (b : Bench) (i : Nat) (before : Nat) : Bench :=
  match b.scatters.get? i with
  | none => b
  | some run =>
    (run.state.flights.filter fun f => before ≤ f.ticket).foldl
      (fun b f => b.line (.flight i f.ticket)) b

/-- Hands the outcomes that have come to a scattered request, in their order. -/
def settleScatter (b : Bench) (i : Nat) (run : ScatterRun) : Bench :=
  let b := b.turnTo run.client
  let c := b.client
  let (state, estimates) := run.outcomes.foldl
    (fun (state, e) (ticket, outcome) =>
      Scatter.receive c.options.waveLimit c.directory.catalog ticket outcome state e)
    (run.state, c.estimates)
  let b := { b with
    client := { c with estimates }
    scatters := b.scatters.insert i { run with state, outcomes := [] } }
  b.turnBack.dispatchNew i run.state.dispatched

def addOutcome (b : Bench) (i ticket : Nat) (outcome : Except Fault (StorageReply Items)) :
    Bench :=
  match b.scatters.get? i with
  | none => b
  | some run =>
    { b with scatters :=
        b.scatters.insert i { run with outcomes := run.outcomes ++ [(ticket, outcome)] } }

/-- Goes on with a call of a scattered request: it is made, or its answer comes. -/
def actFlight (b : Bench) (i ticket : Nat) : Bench :=
  match b.scatters.get? i with
  | none => b
  | some run =>
    match run.state.flights.find? fun f => f.ticket == ticket with
    | none => b
    | some f =>
      let b := b.turnTo run.client
      let arrive (b : Bench) (due : Due) : Bench :=
        match b.isRefused f.host due with
        | some fault => b.addOutcome i ticket (.error fault)
        | none =>
          let (storage, r) := b.storage.answer f.host f.request
          { b with storage }.addOutcome i ticket (.ok r)
      let b := match b.takeFired (.flight i ticket) with
        | some (due, b) => arrive b due
        | none =>
          let (storage, accepted) := b.storage.accept f.host f.request
          let b := { b with storage }
          match accepted with
          | .error fault => b.addOutcome i ticket (.error fault)
          | .ok delay =>
            let (after, due) := b.awaited delay
            if after = 0 then arrive b due else b.setTimer after (.flight i ticket) due
      b.turnBack

def lineBackground (b : Bench) : Bench :=
  ((b.others.insert b.turn b.client).entries.flatMap fun e => e.2.tasks.entries).foldl
    (fun b (t, task) =>
      match task with
      | ⟨.background _, .done _⟩ => b
      | ⟨.background _, _⟩ => if (b.actTask t).isSome then b.line (.task t) else b
      | _ => b)
    b

/-- Everything beside the strands has its turn, one after the other. -/
def actBeside : Nat → Bool → Bench → Bool × Bench
  | 0, moved, b => (moved, b)
  | fuel + 1, moved, b =>
    match b.beside with
    | [] => (moved, b)
    | turn :: rest =>
      let b := { b with beside := rest }
      match turn with
      | .flight i ticket => actBeside fuel true (b.actFlight i ticket)
      | .task t =>
        let (moved, b) := b.pursue 1000000 moved t
        actBeside fuel moved b
      | _ => actBeside fuel moved b

end Bench

end ClusterClient.Simulation
