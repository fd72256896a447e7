import ClusterClient.Simulation.Bench
/-!
A play: a list of actions on a bench, one after the other. An action may be two such
lists side by side. Whenever something can go on, the first of the two has its turn
before the second one, and both before all that goes on beside the play.
-/
namespace ClusterClient.Simulation

/-- An action gives its answer at its end. An action that takes time is told when
it began. -/
inductive Action (ω : Type)
  | instant (answer : Bench → Bench × ω)
  | wait (ms : Nat) (answer : Bench → Bench × ω)
  | perform (op : Operation) (answer : Bench → Except Fault Payload → Bench × ω)
  | scatter (make : Bench → Except Fault (Table Host (Batch Int64)))
      (answer : Bench → Nat → Except Fault (Scatter Int64 Items) → Bench × ω)
  | send (make : Bench → Except Fault Sending) (request : Batch Int64)
      (answer : Bench → Nat → Except Fault (StorageReply Items) → Bench × ω)
  | together (first second : List (Action ω))
      (answer : Bench → List ω → List ω → Bench × ω)

/-- A request to one host under way. -/
structure SendRun where
  sending : Sending
  pausing : Bool
  request : Batch Int64

/-- What an action under way is at; `σ` is the type of strands. -/
inductive Doing (ω σ : Type)
  | waiting (answer : Bench → Bench × ω)
  | task (t : TaskId) (answer : Bench → Except Fault Payload → Bench × ω)
  | scatter (answer : Bench → Except Fault (Scatter Int64 Items) → Bench × ω)
  | send (run : SendRun) (answer : Bench → Except Fault (StorageReply Items) → Bench × ω)
  | together (first second : σ) (answer : Bench → List ω → List ω → Bench × ω)

/-- A list of actions being done. Strands are numbered: the first one that number `i`
splits into is `2 * i`, and the second one comes after it. -/
structure Strand (ω : Type) where
  doing : Option (Doing ω (Strand ω))
  /-- The client that was present when the action under way began. It is needed until
  the action is over. -/
  client : Nat
  todo : List (Action ω)
  answers : List ω

namespace Strand

variable {ω : Type}

def ofList (todo : List (Action ω)) : Strand ω := ⟨none, 0, todo, []⟩

def isOver (s : Strand ω) : Bool := s.doing.isNone && s.todo.isEmpty

def answered (s : Strand ω) : Bench × ω → Bench × Strand ω :=
  fun (b, x) => (b, { s with doing := none, answers := s.answers ++ [x] })

def attempted (b : Bench) (client : Nat) (sending : Sending) : Bench :=
  let b := b.turnTo client
  { b with client := { b.client with
      estimates := sending.attempt b.client.estimates } }.turnBack

/-- Begins an action. -/
def begin (i : Nat) (b : Bench) (s : Strand ω) : Action ω → Bench × Strand ω
  | .instant answer => s.answered (answer b)
  | .wait ms answer =>
    if ms = 0 then s.answered (answer b)
    else (b.setTimer ms (.strand i) .ready, { s with doing := some (.waiting answer) })
  | .perform op answer =>
    let t := b.client.nextTask
    ({ b with client := b.client.invoke op }, { s with doing := some (.task t answer) })
  | .scatter make answer =>
    match make b with
    | .error e => s.answered (answer b b.now (.error e))
    | .ok requests =>
      let c := b.client
      let (state, stats) := Scatter.start "getProps" requests c.estimates.stats
      let b := { b with
        client := { c with estimates := { c.estimates with stats } }
        scatters := b.scatters.insert i ⟨b.turn, state, []⟩ }
      let began := b.now
      (b.dispatchNew i 0, { s with doing := some (.scatter fun b r => answer b began r) })
  | .send make request answer =>
    match make b with
    | .error e => s.answered (answer b b.now (.error e))
    | .ok sending =>
      let began := b.now
      (attempted b s.client sending,
        { s with doing := some (.send ⟨sending, false, request⟩ fun b r => answer b began r) })
  | .together first second answer =>
    (b, { s with doing := some (.together (ofList first) (ofList second) answer) })

/-- Takes the outcome of an attempt to send. The client that sent it has the turn when
its answer is given. -/
def receive (i : Nat) (b : Bench) (s : Strand ω) (run : SendRun)
    (answer : Bench → Except Fault (StorageReply Items) → Bench × ω)
    (outcome : Except Fault (StorageReply Items)) : Bench × Strand ω :=
  let b := b.turnTo s.client
  let c := b.client
  let (estimates, turn) :=
    run.sending.receive c.options.retryCount c.options.retryInterval c.directory.catalog 0
      c.estimates outcome
  let b := { b with client := { c with estimates } }
  match turn with
  | .finish result =>
    let (b, x) := answer b result
    s.answered (b.turnBack, x)
  | .resend sending =>
    (b.turnBack, { s with doing := some (.send { run with sending } answer) })
  | .pause interval sending =>
    let b := b.turnBack
    let run := { run with sending, pausing := true }
    if interval = 0 then
      (attempted b s.client sending,
        { s with doing := some (.send { run with pausing := false } answer) })
    else
      (b.setTimer interval (.strand i) .ready,
        { s with doing := some (.send run answer) })

def actSend (i : Nat) (b : Bench) (s : Strand ω) (run : SendRun)
    (answer : Bench → Except Fault (StorageReply Items) → Bench × ω) :
    Option (Bench × Strand ω) :=
  let host := run.sending.host
  let arrive (b : Bench) (due : Due) : Bench × Strand ω :=
    match (b.turnTo s.client).isRefused host due with
    | some fault => receive i b s run answer (.error fault)
    | none =>
      let (storage, r) := b.storage.answer host run.request
      receive i { b with storage } s run answer (.ok r)
  match b.takeFired (.strand i) with
  | some (due, b) =>
    if run.pausing then
      some (attempted b s.client run.sending,
        { s with doing := some (.send { run with pausing := false } answer) })
    else some (arrive b due)
  | none =>
    if b.isSet (.strand i) then none
    else
      let (storage, accepted) := b.storage.accept host run.request
      let b := { b with storage }
      match accepted with
      | .error fault => some (receive i b s run answer (.error fault))
      | .ok delay =>
        let (after, due) := (b.turnTo s.client).awaited delay
        if after = 0 then some (arrive b due)
        else some (b.setTimer after (.strand i) due, s)

/-- Goes on by one step, if that is possible. Strands side by side have turns of their
own. -/
def act (i : Nat) (b : Bench) (s : Strand ω) : Option (Bench × Strand ω) :=
  match s.doing with
  | none =>
    match s.todo with
    | [] => none
    | a :: rest => some (begin i b { s with client := b.present, todo := rest } a)
  | some (.waiting answer) =>
    (b.takeFired (.strand i)).map fun (_, b) => s.answered (answer b)
  | some (.task t answer) =>
    match b.task? t with
    | some ⟨_, .done result⟩ => some (s.answered (answer (b.dismiss t) result))
    | _ => (b.actTask t).map fun b => (b, s)
  | some (.scatter answer) =>
    match b.scatters.get? i with
    | none => none
    | some run =>
      if run.outcomes.isEmpty then
        if run.state.finished then some (s.answered (answer b (.ok run.state))) else none
      else some (b.settleScatter i run, s)
  | some (.send run answer) => actSend i b s run answer
  | some (.together ..) => none

/-- Goes on as far as possible; tells whether it got anywhere. -/
def pursue : Nat → Nat → Bool → Bench → Strand ω → Bool × Bench × Strand ω
  | 0, _, moved, b, s => (moved, b, s)
  | fuel + 1, i, moved, b, s =>
    match s.doing with
    | some (.together first second answer) =>
      let (moved, b, first) := pursue fuel (2 * i) moved b first
      let (moved, b, second) := pursue fuel (2 * i + 1) moved b second
      if first.isOver ∧ second.isOver then
        let (b, s) := s.answered (answer b first.answers second.answers)
        pursue fuel i true b s
      else (moved, b, { s with doing := some (.together first second answer) })
    | _ =>
      match act i b s with
      | some (b, s) => pursue fuel i true b s
      | none => (moved, b, s)

/-- The clients that actions under way need. -/
def needs : Strand ω → List Nat
  | ⟨none, _, _, _⟩ => []
  | ⟨some (.together first second _), client, _, _⟩ => client :: (first.needs ++ second.needs)
  | ⟨some _, client, _, _⟩ => [client]

end Strand

namespace Play

variable {ω : Type}

/-- Goes on until the strand is over or nothing can happen any more. -/
def run : Nat → Bench → Strand ω → List ω
  | 0, _, s => s.answers
  | fuel + 1, b, s =>
    let (moved, b, s) := s.pursue 1000000 1 false b
    if s.isOver then s.answers
    else
      let (moved, b) := (b.release s.needs).lineBackground.actBeside 1000000 moved
      if moved then run fuel b s
      else match b.jump? with
        | some b => run fuel b s
        | none => s.answers

/-- The answers of all actions, in their order. -/
def perform (b : Bench) (todo : List (Action ω)) : List ω :=
  run 1000000000 b (.ofList todo)

end Play

end ClusterClient.Simulation
