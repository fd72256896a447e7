import ClusterClient.Proofs.Client.Work
import ClusterClient.Table.Lemmas
/-!
All that one step of a client can do: how operations are begun, how tasks get their turn
and give it back, and what the outcome of a call leads to.
-/
namespace ClusterClient

/-- Whether the work of a job is a cycle, of which there is one at a time. -/
def Job.cycles : Job → Bool
  | .heartbeat | .ask => false
  | _ => true

theorem Sending.outcome_of_finish {ρ : Type} [Reply ρ] {s : Sending} {limit choice : Nat}
    {interval : Nat} {catalog : Catalog} {e : Estimates} {outcome : Except Fault ρ} {reply : ρ}
    (h : (s.receive limit interval catalog choice e outcome).2 = .finish (.ok reply)) :
    outcome = .ok reply := by
  unfold receive at h
  cases outcome with
  | error fault =>
    dsimp only at h
    split at h <;> cases h
  | ok r =>
    dsimp only at h
    split at h
    · split at h
      · cases h
        rfl
      · cases h
    · cases h
      rfl

/-- An attempt at the meta service tells nothing about the leaders of partitions. -/
theorem Sending.receive_metaService {ρ : Type} [Reply ρ] {s : Sending} {toLeader : Bool}
    (route : s.route = .metaService toLeader) (limit interval choice : Nat) (catalog : Catalog)
    (e : Estimates) (outcome : Except Fault ρ) :
    (s.receive limit interval catalog choice e outcome).1.leaders = e.leaders ∧
      ∀ s', (s.receive limit interval catalog choice e outcome).2 = .resend s' ∨
        (∃ ms, (s.receive limit interval catalog choice e outcome).2 = .pause ms s') →
          s'.route = .metaService toLeader := by
  cases outcome with
  | error fault =>
    simp only [receive, afterFailure, route]
    split
    · exact ⟨rfl, by simp⟩
    · refine ⟨rfl, fun s' again => ?_⟩
      rcases again with again | ⟨ms, again⟩
      · cases again
      · rw [← (Turn.pause.inj again).2]
  | ok reply =>
    simp only [receive, afterLeaderChange, route]
    split
    · split
      · exact ⟨rfl, by simp⟩
      · refine ⟨rfl, fun s' again => ?_⟩
        rcases again with again | ⟨ms, again⟩
        · rw [← Turn.resend.inj again]
        · cases again
    · exact ⟨rfl, by simp⟩

/-- If there is a call, it goes to the meta service. -/
def Slot.ToMeta {α : Type} : Slot α → Prop
  | .calling s | .pausing _ s => ∃ toLeader, s.route = .metaService toLeader
  | _ => True

def Work.ToMeta (w : Work) : Prop := ∀ q, (w.slots q).ToMeta

theorem MetaReply.toExcept_error {α : Type} {r : MetaReply α} (h : r.status ≠ .succeeded) :
    ∃ fault, r.toExcept = .error fault := by
  unfold toExcept
  split
  · rename_i ok
    exact absurd ok h
  · exact ⟨_, rfl⟩
  · exact ⟨_, rfl⟩

namespace Client

variable (c : Client)

@[simp] theorem task?_stand (t : TaskId) (job : Job) (standing : Standing) (u : TaskId) :
    (c.stand t job standing).task? u = if u = t then some ⟨job, standing⟩ else c.task? u :=
  Table.get?_insert _ _ _ _

@[simp] theorem task?_finish (t : TaskId) (job : Job) (result : Except Fault Payload)
    (u : TaskId) :
    (c.finish t job result).task? u = if u = t then some ⟨job, .done result⟩ else c.task? u :=
  Table.get?_insert _ _ _ _

theorem report_eq (fault : Fault) : ∃ fatal, c.report fault = { c with fatal } := by
  unfold report
  split
  · exact ⟨_, rfl⟩
  · exact ⟨c.fatal, rfl⟩

theorem tellBackground_eq (b : TaskId) :
    c.tellBackground b = c ∨ ∃ told standing, c.task? b = some ⟨.background told, standing⟩ ∧
      c.tellBackground b = c.stand b (.background true) standing := by
  unfold tellBackground
  split
  · rename_i told standing h
    exact .inr ⟨told, standing, h, rfl⟩
  · exact .inl rfl

/-- A client to which nothing has happened yet. -/
structure Pristine (options : Options) (listening : Bool) (c : Client) : Prop where
  options : c.options = options
  listening : c.listening = listening
  directory : c.directory = .empty
  notices : c.notices = []
  watermark : c.watermark = 0
  phase : c.phase = .created
  stopped : c.stopped = false
  background : c.background = none
  holder : c.holder = none
  waiting : c.waiting = []
  tasks : ∀ t, c.task? t = none

theorem create_pristine {options : Options} {path : String} {listening : Bool} {choice : Nat}
    {disk : FileTree} {c : Client} (h : create options path listening choice disk = .ok c) :
    Pristine options listening c := by
  unfold create at h
  cases start : MetaLeader.start options.metaAddresses choice with
  | error fault =>
    rw [start] at h
    cases h
  | ok metaLeader =>
    rw [start] at h
    cases h
    constructor <;> intros <;> rfl

theorem tellBackground_tasks (b : TaskId) : ∃ tasks, c.tellBackground b = { c with tasks } := by
  rcases c.tellBackground_eq b with eq | ⟨_, _, _, eq⟩
  · exact ⟨c.tasks, eq⟩
  · exact ⟨_, eq⟩

/-- After so many probes that failed a start may not try again. -/
def Spent (failed : Nat) : Prop :=
  0 ≤ c.options.readyRetry.toInt ∧ max c.options.readyRetry.toInt 1 ≤ failed

/-- How a job that was at work comes to its end, or to its next rest. -/
inductive Ending (c : Client) (t : TaskId) : Job → Except Fault Payload → Client → Prop
  | kept (clear : Bool) (result : Except Fault Payload) : Ending c t (.stop clear) result c
  | answered {job : Job} (h : job.cycles = false) (result : Except Fault Payload) :
    Ending c t job result (c.finish t job result)
  | finishes {job : Job} (cycles : job.cycles = true) (result outcome : Except Fault Payload)
      (fatal : List Fault)
      (h : ∀ n, job = .start n → (c.phase ≠ .probing ∧ ∃ payload, result = .ok payload) ∧
        outcome = .error (.notReady .stopped))
      (load : job = .loadData ∨ job = .loadConfig → outcome = result) :
    Ending c t job result ({ c.release with fatal }.finish t job outcome)
  | rests {job : Job} (result : Except Fault Payload) (fatal : List Fault) (next : Job)
      (h : job = .background false ∧ next = .background false ∨
        ∃ n fault, job = .start n ∧ next = .start (n + 1) ∧ result = .error fault ∧
          ¬ c.Spent (n + 1)) :
    Ending c t job result ({ c.release with fatal }.stand t next .resting)
  | ready (n : Nat) (payload : Payload) (h : c.phase = .probing) :
    Ending c t (.start n) (.ok payload)
      (c.release.spawnBackground.finish t (.start n) (.ok .nothing))
  | givesUp (n : Nat) (fault : Fault) (fatal : List Fault) (spent : c.Spent (n + 1)) :
    Ending c t (.start n) (.error fault)
      ({ c.release with fatal, phase := .created }.finish t (.start (n + 1))
        (.error (.notReady (.unavailable (n + 1) fault.message))))

theorem conclude_ending (t : TaskId) (job : Job) (result : Except Fault Payload) :
    Ending c t job result (c.conclude t job result) := by
  have quiet : c.release = { c.release with fatal := c.fatal } := rfl
  cases job with
  | heartbeat => exact .answered rfl result
  | ask => exact .answered rfl result
  | stop clear => exact .kept clear result
  | loadData =>
    rw [conclude, quiet]
    exact .finishes rfl result result c.fatal nofun fun _ => rfl
  | loadConfig =>
    rw [conclude, quiet]
    exact .finishes rfl result result c.fatal nofun fun _ => rfl
  | refresh =>
    cases result with
    | ok payload =>
      simp only [conclude]
      rw [quiet]
      exact .finishes rfl _ _ c.fatal nofun (by simp)
    | error fault =>
      obtain ⟨fatal, h⟩ := c.report_eq fault
      simp only [conclude, h]
      exact .finishes rfl _ _ fatal nofun (by simp)
  | background told =>
    have ends : ∀ result fatal, Ending c t (.background told) result
        (if told then { c.release with fatal }.finish t (.background told) (.ok .nothing)
          else { c.release with fatal }.stand t (.background told) .resting) := by
      intro result fatal
      cases told with
      | true => exact .finishes rfl _ _ fatal nofun (by simp)
      | false => exact .rests _ fatal _ (.inl ⟨rfl, rfl⟩)
    cases result with
    | ok payload => exact ends _ c.fatal
    | error fault =>
      obtain ⟨fatal, h⟩ := c.report_eq fault
      simp only [conclude, h]
      exact ends _ fatal
  | start n =>
    cases result with
    | ok payload =>
      simp only [conclude, probed]
      split
      · rename_i h
        exact .ready n payload h
      · rename_i h
        rw [quiet]
        exact .finishes rfl _ _ c.fatal (fun _ _ => ⟨⟨h, payload, rfl⟩, rfl⟩) (by simp)
    | error fault =>
      obtain ⟨fatal, h⟩ := c.release.report_eq fault
      simp only [conclude, probed, h]
      split
      · rename_i spent
        exact .givesUp n fault fatal (mod_cast spent)
      · rename_i left
        exact .rests _ fatal _ (.inr ⟨n, fault, rfl, rfl, rfl, mod_cast left⟩)

/-- How a task that has its turn enters its cycle. -/
inductive Entry (c : Client) (t : TaskId) : Job → Client → Prop
  | stops (clear : Bool) (directory : Directory) (estimates : Estimates)
      (kept : clear = false → directory = c.directory)
      (emptied : clear = true → directory = .empty) :
    Entry c t (.stop clear)
      { c.release.finish t (.stop clear) (.ok .nothing) with directory, estimates }
  | refused {job : Job} {c' : Client} (live : ∀ clear, job ≠ .stop clear) (h : c.stopped = true)
      (ends : Ending c t job (.error (.notReady .stopped)) c') : Entry c t job c'
  | begins {job : Job} (live : ∀ clear, job ≠ .stop clear) (h : c.stopped = false) :
    Entry c t job (c.stand t job (.working (.begin none (c.firstStage job))))

theorem enter_entry (t : TaskId) (job : Job) : Entry c t job (c.enter t job) := by
  have entry : (∀ clear, job ≠ .stop clear) → Entry c t job
      (if c.stopped then c.conclude t job (.error (.notReady .stopped))
        else c.stand t job (.working (.begin none (c.firstStage job)))) := by
    intro live
    split
    · rename_i h
      exact .refused live h (c.conclude_ending t job _)
    · rename_i h
      exact .begins live (by simpa using h)
  cases job with
  | stop clear =>
    cases clear with
    | true => exact .stops true .empty _ nofun fun _ => rfl
    | false => exact .stops false c.directory c.estimates (fun _ => rfl) nofun
  | _ => exact entry nofun

/-- A call that is under way: its task, the work and the sending. -/
structure Calling (c : Client) (t : TaskId) (q : Query) (job : Job) (w : Work) (s : Sending) :
    Prop where
  task : c.task? t = some ⟨job, .working w⟩
  slot : w.slots q = .calling s

/-- What the outcome of a call leads to. -/
inductive Answering (c : Client) (t : TaskId) (q : Query) (job : Job) (w : Work) :
    Except Fault (MetaReply q.Value) → Client → Prop
  | again {outcome : Except Fault (MetaReply q.Value)} (estimates : Estimates) (s : Sending)
      (kept : w.ToMeta → estimates.leaders = c.estimates.leaders ∧
        ∃ toLeader, s.route = .metaService toLeader) :
    Answering c t q job w outcome ({ c with estimates }.setSlot t job w q (.calling s))
  | pauses {outcome : Except Fault (MetaReply q.Value)} {interval : Nat} (estimates : Estimates)
      (s : Sending)
      (kept : w.ToMeta → estimates.leaders = c.estimates.leaders ∧
        ∃ toLeader, s.route = .metaService toLeader) :
    Answering c t q job w outcome ({ c with estimates }.setSlot t job w q (.pausing interval s))
  | fails {outcome : Except Fault (MetaReply q.Value)} {d : Client} (estimates : Estimates)
      (fault : Fault) (ending : Ending { c with estimates } t job (.error fault) d)
      (kept : w.ToMeta → estimates.leaders = c.estimates.leaders) :
    Answering c t q job w outcome d
  | advances (estimates : Estimates) (leader : Option Host) (v : q.Value) {d : Client} {w' : Work}
      (advancing : Advancing { c with estimates } job
        { w with slots := w.slots.set q (.done v) } d (.more w'))
      (kept : w.ToMeta → estimates.leaders = c.estimates.leaders) :
    Answering c t q job w (.ok ⟨.succeeded, leader, v⟩) (d.stand t job (.working w'))
  | ends (estimates : Estimates) (leader : Option Host) (v : q.Value) {d d' : Client}
      {result : Except Fault Payload}
      (advancing : Advancing { c with estimates } job
        { w with slots := w.slots.set q (.done v) } d (.ended result))
      (ending : Ending d t job result d')
      (kept : w.ToMeta → estimates.leaders = c.estimates.leaders) :
    Answering c t q job w (.ok ⟨.succeeded, leader, v⟩) d'

theorem answer_cases (t : TaskId) (q : Query) (choice : Nat)
    (outcome : Except Fault (MetaReply q.Value)) :
    c.answer t q choice outcome = c ∨ ∃ job w s, c.Calling t q job w s ∧
      Answering c t q job w outcome (c.answer t q choice outcome) := by
  unfold answer
  split
  · rename_i job w task
    split
    · rename_i s slot
      right
      refine ⟨job, w, s, ⟨task, slot⟩, ?_⟩
      have route : w.ToMeta → (Slot.calling s : Slot q.Value).ToMeta :=
        fun toMeta => slot ▸ toMeta q
      have routed : w.ToMeta → ∃ toLeader, _ := fun toMeta =>
        (route toMeta).imp fun toLeader route =>
          Sending.receive_metaService route c.options.retryCount c.options.retryInterval choice
            c.directory.catalog c.estimates outcome
      generalize turned : s.receive c.options.retryCount c.options.retryInterval
        c.directory.catalog choice c.estimates outcome = result at routed
      obtain ⟨estimates, turn⟩ := result
      have kept : w.ToMeta → estimates.leaders = c.estimates.leaders := fun toMeta =>
        let ⟨_, kept, _⟩ := routed toMeta
        kept
      cases turn with
      | resend s' =>
        exact .again estimates s' fun toMeta =>
          ⟨kept toMeta, (routed toMeta).imp fun _ again => again.2 s' (.inl rfl)⟩
      | pause interval s' =>
        exact .pauses estimates s' fun toMeta =>
          ⟨kept toMeta, (routed toMeta).imp fun _ again => again.2 s' (.inr ⟨interval, rfl⟩)⟩
      | finish result =>
        cases result with
        | error fault => exact .fails estimates fault (conclude_ending _ t job _) kept
        | ok reply =>
          have same := Sending.outcome_of_finish (congrArg Prod.snd turned)
          subst same
          -- an answer that came may still tell of a failure
          by_cases ok : reply.status = .succeeded
          · obtain ⟨status, leader, v⟩ := reply
            subst ok
            have advancing := advance_advancing { c with estimates } job
              { w with slots := w.slots.set q (.done v) }
            simp only [MetaReply.toExcept]
            generalize ({ c with estimates } : Client).advance job
              { w with slots := w.slots.set q (.done v) } = next at advancing ⊢
            obtain ⟨d, progress⟩ := next
            cases progress with
            | more w' => exact .advances estimates leader v advancing kept
            | ended result =>
              exact .ends estimates leader v advancing (conclude_ending d t job result) kept
          · obtain ⟨fault, h⟩ := MetaReply.toExcept_error ok
            simp only [h]
            exact .fails estimates fault (conclude_ending _ t job _) kept
    · exact .inl rfl
  · exact .inl rfl

/-- How a task gets in line for its turn. -/
inductive Queueing (c : Client) (t : TaskId) (job : Job) : Client → Prop
  | waits (u : TaskId) (held : c.holder = some u) :
    Queueing c t job ({ c with waiting := c.waiting ++ [t] }.stand t job .queued)
  | turns {c' : Client} (free : c.holder = none)
      (entry : Entry { c with holder := some t } t job c') : Queueing c t job c'

theorem queue_queueing (t : TaskId) (job : Job) : Queueing c t job (c.queue t job) := by
  unfold queue
  split
  · rename_i free
    exact .turns free (enter_entry _ t job)
  · rename_i u held
    exact .waits u held

/-- The client with the number for a new task taken. -/
def numbered (c : Client) : Client := { c with nextTask := c.nextTask + 1 }

/-- The client as it is once it was told to stop. -/
def halting (c : Client) : Client :=
  { c.numbered with phase := .stopped, stopped := true, background := none }

/-- How an operation is begun. -/
inductive Beginning (c : Client) : Operation → Client → Prop
  | start {c' : Client} (created : c.phase = .created)
      (queueing : Queueing { c.numbered with phase := .probing } c.nextTask (.start 0) c') :
    Beginning c .start c'
  | declined (result : Except Fault Payload) (h : c.phase ≠ .created)
      (stopped : c.phase = .stopped → result = .error (.notReady .stopped))
      (given : ∀ n words, result ≠ .error (.notReady (.unavailable n words))) :
    Beginning c .start (c.numbered.finish c.nextTask (.start 0) result)
  | joins (clear : Bool) (b : TaskId) (h : c.background = some b) :
    Beginning c (.stop clear)
      ((c.halting.tellBackground b).stand c.nextTask (.stop clear) (.joining b))
  | stop {c' : Client} (clear : Bool) (h : c.background = none)
      (queueing : Queueing c.halting c.nextTask (.stop clear) c') : Beginning c (.stop clear) c'
  | ignored : Beginning c .refresh (c.numbered.finish c.nextTask .refresh (.ok .nothing))
  | refresh {c' : Client} (queueing : Queueing c.numbered c.nextTask .refresh c') :
    Beginning c .refresh c'
  | loadData {c' : Client} (queueing : Queueing c.numbered c.nextTask .loadData c') :
    Beginning c .loadData c'
  | loadConfig {c' : Client} (queueing : Queueing c.numbered c.nextTask .loadConfig c') :
    Beginning c .loadConfig c'
  | heartbeat :
    Beginning c .heartbeat (c.numbered.stand c.nextTask .heartbeat
      (.working (.begin none (.beat c.heartbeatRequest))))
  | ask (q : Query) (request : Request) :
    Beginning c (.ask q request) (c.numbered.stand c.nextTask .ask
      (.working (.begin none (.ask q request))))

theorem invoke_beginning (op : Operation) : Beginning c op (c.invoke op) := by
  cases op with
  | start =>
    simp only [invoke]
    split
    · rename_i created
      exact .start created (queue_queueing _ _ _)
    · rename_i h
      exact .declined _ (by simp [h]) (by simp [h]) nofun
    · rename_i h
      exact .declined _ (by simp [h]) (by simp [h]) (by simp)
    · rename_i h
      exact .declined _ (by simp [h]) (by simp) (by simp)
  | stop clear =>
    simp only [invoke]
    split
    · rename_i b h
      exact .joins clear b h
    · rename_i h
      exact .stop clear h (queue_queueing _ _ _)
  | refresh =>
    simp only [invoke]
    split
    · exact .refresh (queue_queueing _ _ _)
    · exact .refresh (queue_queueing _ _ _)
    · exact .ignored
    · exact .ignored
  | loadData => exact .loadData (queue_queueing _ _ _)
  | loadConfig => exact .loadConfig (queue_queueing _ _ _)
  | heartbeat => exact .heartbeat
  | ask q request => exact .ask q request

/-- How a task goes on when what it waited for has come about. -/
inductive Resuming (c : Client) (t : TaskId) : Client → Prop
  | enters {job : Job} {c' : Client} (task : c.task? t = some ⟨job, .queued⟩)
      (turn : c.holder = some t) (entry : Entry c t job c') : Resuming c t c'
  | ends (task : c.task? t = some ⟨.background true, .resting⟩) :
    Resuming c t (c.finish t (.background true) (.ok .nothing))
  | rested {job : Job} {c' : Client} (task : c.task? t = some ⟨job, .resting⟩)
      (queueing : Queueing c t job c') : Resuming c t c'
  | joined {job : Job} {b : TaskId} {c' : Client} (task : c.task? t = some ⟨job, .joining b⟩)
      (ended : c.isOver b = true) (queueing : Queueing c t job c') : Resuming c t c'

theorem resume_cases (t : TaskId) : c.resume t = c ∨ Resuming c t (c.resume t) := by
  unfold resume
  split
  · rename_i job task
    split
    · rename_i turn
      exact .inr (.enters task turn (enter_entry _ _ _))
    · exact .inl rfl
  · rename_i task
    exact .inr (.ends task)
  · rename_i job _ task
    exact .inr (.rested task (queue_queueing _ _ _))
  · rename_i job b task
    split
    · rename_i ended
      exact .inr (.joined task ended (queue_queueing _ _ _))
    · exact .inl rfl
  · exact .inl rfl

/-- A call is made anew: for the first time, or after a pause. -/
inductive Dialling (c : Client) (t : TaskId) (q : Query) : Client → Prop
  | made {job : Job} {w : Work} (task : c.task? t = some ⟨job, .working w⟩)
      (estimates : Estimates) (s : Sending)
      (kept : w.ToMeta → estimates.leaders = c.estimates.leaders ∧
        ∃ toLeader, s.route = .metaService toLeader)
      (listed : q ∈ w.stage.queries ∨ ∃ interval s, w.slots q = .pausing interval s) :
    Dialling c t q ({ c with estimates }.setSlot t job w q (.calling s))

theorem call_cases (t : TaskId) (q : Query) :
    c.call t q = c ∨ Dialling c t q (c.call t q) := by
  unfold call
  split
  · rename_i job w task
    split
    · split
      · rename_i listed
        exact .inr (.made task _ _ (fun _ => ⟨rfl, true, rfl⟩) (.inl listed))
      · exact .inl rfl
    · exact .inl rfl
  · exact .inl rfl

theorem wake_cases (t : TaskId) (q : Query) :
    c.wake t q = c ∨ Dialling c t q (c.wake t q) := by
  unfold wake
  split
  · rename_i job w task
    split
    · rename_i interval s slot
      have route : w.ToMeta → (Slot.pausing interval s : Slot q.Value).ToMeta :=
        fun toMeta => slot ▸ toMeta q
      exact .inr (.made task _ _ (fun toMeta => ⟨rfl, route toMeta⟩) (.inr ⟨interval, s, slot⟩))
    · exact .inl rfl
  · exact .inl rfl

/-- All that a step can do. -/
inductive Move (c : Client) : Event → Client → Prop
  | nothing (e : Event) : Move c e c
  | begins {op : Operation} {c' : Client} (h : Beginning c op c') : Move c (.invoke op) c'
  | calls {t : TaskId} {q : Query} {c' : Client} (h : Dialling c t q c') :
    Move c (.call t q) c'
  | wakes {t : TaskId} {q : Query} {c' : Client} (h : Dialling c t q c') :
    Move c (.wake t q) c'
  | resumes {t : TaskId} {c' : Client} (h : Resuming c t c') : Move c (.resume t) c'
  | answers {t : TaskId} {q : Query} {choice : Nat}
      {outcome : Except Fault (MetaReply q.Value)} {job : Job} {w : Work} {s : Sending}
      {c' : Client} (calling : c.Calling t q job w s)
      (h : Answering c t q job w outcome c') : Move c (.answer t q choice outcome) c'

theorem step_move (e : Event) : Move c e (c.step e) := by
  cases e with
  | invoke op => exact .begins (c.invoke_beginning op)
  | call t q =>
    rcases c.call_cases t q with h | h
    · exact (congrArg (Move c _) h).mpr (.nothing _)
    · exact .calls h
  | wake t q =>
    rcases c.wake_cases t q with h | h
    · exact (congrArg (Move c _) h).mpr (.nothing _)
    · exact .wakes h
  | resume t =>
    rcases c.resume_cases t with h | h
    · exact (congrArg (Move c _) h).mpr (.nothing _)
    · exact .resumes h
  | answer t q choice outcome =>
    rcases c.answer_cases t q choice outcome with h | ⟨job, w, s, calling, h⟩
    · exact (congrArg (Move c _) h).mpr (.nothing _)
    · exact .answers calling h

/-- What every step keeps is kept by every run. -/
theorem run_keeps {P : Client → Prop} (steps : ∀ c e, P c → P (step c e)) {c : Client} (h : P c)
    (events : List Event) : P (c.run events) := by
  induction events generalizing c with
  | nil => exact h
  | cons e events ih => exact ih (steps c e h)

theorem run_append (events later : List Event) :
    c.run (events ++ later) = (c.run events).run later := List.foldl_append

theorem run_concat (events : List Event) (e : Event) :
    c.run (events ++ [e]) = (c.run events).step e := c.run_append events [e]

theorem run_past (before after : List Event) (e : Event) :
    c.run (before ++ e :: after) = (c.run (before ++ [e])).run after := by
  rw [run_concat]
  exact c.run_append before (e :: after)

end Client

end ClusterClient
