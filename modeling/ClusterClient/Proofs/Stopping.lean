import ClusterClient.Proofs.Client.Frame
/-!
What a client does after it was told to stop. It stays stopped unless a start that was
still under way runs out of tries.
-/
namespace ClusterClient.Client

variable {c d : Client} {t : TaskId} {job : Job}

/-- The start has come to its end because it may not probe any more. -/
def GaveUp (c : Client) (t : TaskId) : Prop :=
  ∃ n tries words,
    c.task? t = some ⟨.start n, .done (.error (.notReady (.unavailable tries words)))⟩

/-- The client is stopped, and a start would be over at once. -/
structure Refuses (c : Client) : Prop where
  stopped : c.phase = .stopped
  start : (c.step (.invoke .start)).task? c.nextTask =
    some ⟨.start 0, .done (.error (.notReady .stopped))⟩

theorem gaveUp_stand {standing : Standing} (h : (d.stand t job standing).GaveUp t) :
    ∃ n tries words, job = .start n ∧
      standing = .done (.error (.notReady (.unavailable tries words))) := by
  obtain ⟨n, tries, words, task⟩ := h
  rw [task?_stand, if_pos rfl] at task
  cases task
  exact ⟨n, tries, words, rfl, rfl⟩

/-- What a step about a task does to a client that is stopped. -/
def Halts (c d : Client) (t : TaskId) : Prop :=
  d.phase = .stopped ∧ (d.GaveUp t → c.GaveUp t) ∨ d.phase = .created ∧ d.GaveUp t

theorem halts_stand (stopped : d.phase = .stopped) {standing : Standing}
    (live : ∀ r, standing ≠ .done r) : Halts c (d.stand t job standing) t := by
  refine .inl ⟨stopped, fun gave => ?_⟩
  obtain ⟨_, _, _, _, eq⟩ := gaveUp_stand gave
  exact absurd eq (live _)

theorem halts_finish (stopped : d.phase = .stopped) {result : Except Fault Payload}
    (h : ∀ n, job = .start n → ∀ tries words,
      result ≠ .error (.notReady (.unavailable tries words))) :
    Halts c (d.finish t job result) t := by
  refine .inl ⟨stopped, fun gave => ?_⟩
  obtain ⟨n, tries, words, eq, ended⟩ := gaveUp_stand gave
  cases ended
  exact absurd rfl (h n eq tries words)

theorem Ending.halts {result : Except Fault Payload} (h : Ending c t job result d)
    (stopped : c.phase = .stopped) : Halts c d t := by
  cases h with
  | kept clear result => exact .inl ⟨stopped, id⟩
  | answered idle result =>
    refine halts_finish stopped fun n eq => ?_
    rw [eq] at idle
    cases idle
  | finishes _ _ outcome fatal h =>
    refine halts_finish (d := { c.release with fatal }) stopped fun n eq tries words => ?_
    rw [(h n eq).2]
    simp
  | rests _ fatal next _ => exact halts_stand (d := { c.release with fatal }) stopped (by simp)
  | ready n payload probing =>
    rw [stopped] at probing
    cases probing
  | givesUp n fault fatal _ =>
    exact .inr ⟨rfl, n + 1, n + 1, fault.message, task?_finish .. |>.trans (if_pos rfl)⟩

theorem Entry.halts (h : Entry c t job d) (stopped : c.phase = .stopped) : Halts c d t := by
  cases h with
  | stops clear directory estimates _ _ =>
    refine .inl ⟨stopped, fun gave => ?_⟩
    obtain ⟨_, _, _, eq, _⟩ := gaveUp_stand (d := c.release) (t := t) gave
    cases eq
  | refused _ _ ends => exact ends.halts stopped
  | begins _ _ => exact halts_stand stopped (by simp)

theorem Queueing.halts (h : Queueing c t job d) (stopped : c.phase = .stopped) : Halts c d t := by
  cases h with
  | waits u _ => exact halts_stand (d := { c with waiting := c.waiting ++ [t] }) stopped (by simp)
  | turns _ entry => exact entry.halts stopped

theorem Dialling.halts {q : Query} (h : Dialling c t q d) (stopped : c.phase = .stopped) :
    Halts c d t := by
  cases h with
  | made _ estimates s => exact halts_stand (d := { c with estimates }) stopped (by simp)

theorem Resuming.halts (h : Resuming c t d) (stopped : c.phase = .stopped) : Halts c d t := by
  cases h with
  | enters _ _ entry => exact entry.halts stopped
  | ends _ => exact halts_finish stopped (fun n eq => by cases eq)
  | rested _ queueing => exact queueing.halts stopped
  | joined _ _ queueing => exact queueing.halts stopped

theorem Answering.halts {q : Query} {w : Work} {outcome : Except Fault (MetaReply q.Value)}
    (h : Answering c t q job w outcome d) (stopped : c.phase = .stopped) : Halts c d t := by
  cases h with
  | again estimates s => exact halts_stand (d := { c with estimates }) stopped (by simp)
  | pauses estimates s => exact halts_stand (d := { c with estimates }) stopped (by simp)
  | fails estimates fault ending => exact ending.halts stopped
  | advances estimates leader v advancing =>
    exact halts_stand (advancing.alike.phase.trans stopped) (by simp)
  | ends estimates leader v advancing ending =>
    have like := advancing.alike
    rcases ending.halts (like.phase.trans stopped) with ⟨phase, kept⟩ | gave
    · refine .inl ⟨phase, fun gave => ?_⟩
      obtain ⟨n, tries, words, task⟩ := kept gave
      exact ⟨n, tries, words, by rwa [task?, like.tasks] at task⟩
    · exact .inr gave

theorem Beginning.halts {op : Operation} (h : Beginning c op d) (stopped : c.phase = .stopped) :
    Halts c d c.nextTask := by
  have quiet : ∀ {e : Client}, (∀ u, e.task? u = c.task? u) → Halts e d c.nextTask →
      Halts c d c.nextTask := by
    rintro e same (⟨phase, kept⟩ | gave)
    · refine .inl ⟨phase, fun gave => ?_⟩
      obtain ⟨n, tries, words, task⟩ := kept gave
      exact ⟨n, tries, words, same _ ▸ task⟩
    · exact .inr gave
  cases h with
  | start created _ =>
    rw [stopped] at created
    cases created
  | declined result _ _ given =>
    exact halts_finish (d := c.numbered) stopped fun _ _ tries words => given tries words
  | joins clear b _ =>
    obtain ⟨tasks, eq⟩ := c.halting.tellBackground_tasks b
    rw [eq]
    exact halts_stand rfl (by simp)
  | stop clear _ h => exact quiet (fun _ => rfl) (h.halts rfl)
  | ignored => exact halts_finish (d := c.numbered) stopped (fun n eq => by cases eq)
  | refresh h => exact quiet (fun _ => rfl) (h.halts stopped)
  | loadData h => exact quiet (fun _ => rfl) (h.halts stopped)
  | loadConfig h => exact quiet (fun _ => rfl) (h.halts stopped)
  | heartbeat => exact halts_stand (d := c.numbered) stopped (by simp)
  | ask q request => exact halts_stand (d := c.numbered) stopped (by simp)

theorem step_halts (c : Client) (e : Event) (stopped : c.phase = .stopped) :
    Halts c (c.step e) (c.subject e) := by
  have move := c.step_move e
  generalize c.step e = d at move
  cases move with
  | nothing => exact .inl ⟨stopped, id⟩
  | begins beginning => exact beginning.halts stopped
  | calls dialling => exact dialling.halts stopped
  | wakes dialling => exact dialling.halts stopped
  | resumes resuming => exact resuming.halts stopped
  | answers _ answering => exact answering.halts stopped

theorem Beside.gaveUp {u : TaskId} (h : Beside c d u) (gave : d.GaveUp u) : c.GaveUp u := by
  obtain ⟨n, tries, words, task⟩ := gave
  cases h with
  | same h => exact ⟨n, tries, words, h ▸ task⟩
  | spawned _ h =>
    rw [h] at task
    cases task
  | told _ _ _ after =>
    rw [after] at task
    cases task

/-- A client that is stopped is so after a step too, or a start has given up in it. -/
theorem step_stopped (h : Orderly c) (stopped : c.phase = .stopped) (e : Event) :
    (c.step e).phase = .stopped ∧ (∀ t, (c.step e).GaveUp t → c.GaveUp t) ∨
      (c.step e).phase = .created ∧ ∃ t, (c.step e).GaveUp t ∧ ¬ c.GaveUp t := by
  rcases c.step_halts e stopped with ⟨phase, kept⟩ | ⟨phase, gave⟩
  · refine .inl ⟨phase, fun t gave => ?_⟩
    by_cases eq : t = c.subject e
    · exact eq ▸ kept (eq ▸ gave)
    · exact (c.step_beside e eq).gaveUp gave
  · refine .inr ⟨phase, c.subject e, gave, fun before => ?_⟩
    obtain ⟨n, tries, words, ended⟩ := before
    rw [step_over h e ended, stopped] at phase
    cases phase

theorem step_gaveUp (h : Orderly c) (e : Event) (gave : c.GaveUp t) : (c.step e).GaveUp t := by
  obtain ⟨n, tries, words, task⟩ := gave
  exact ⟨n, tries, words, step_done h e (by simp) task⟩

theorem run_gaveUp (h : Orderly c) (events : List Event) (gave : c.GaveUp t) :
    (c.run events).GaveUp t := by
  induction events generalizing c with
  | nil => exact gave
  | cons e events ih => exact ih (step_orderly h e) (step_gaveUp h e gave)

/-- Stopped at every moment of a run means that no start has given up in it. -/
theorem run_stopped_iff (h : Orderly c) (stopped : c.phase = .stopped) (events : List Event) :
    (∀ seen, seen <+: events → (c.run seen).phase = .stopped) ↔
      ∀ t, (c.run events).GaveUp t → c.GaveUp t := by
  induction events generalizing c with
  | nil =>
    constructor
    · exact fun _ t gave => gave
    · intro _ seen prefixed
      rw [List.prefix_nil.mp prefixed]
      exact stopped
  | cons e events ih =>
    have orderly := step_orderly h e
    rcases step_stopped h stopped e with ⟨still, kept⟩ | ⟨back, t, gave, before⟩
    · constructor
      · intro always t gave
        refine kept t ((ih orderly still).mp (fun seen prefixed => ?_) t gave)
        exact always (e :: seen) (List.cons_prefix_cons.mpr ⟨rfl, prefixed⟩)
      · intro none seen prefixed
        cases seen with
        | nil => exact stopped
        | cons e' seen =>
          obtain ⟨rfl, tail⟩ := List.cons_prefix_cons.mp prefixed
          refine (ih orderly still).mpr (fun t gave => ?_) seen tail
          exact step_gaveUp h _ (none t gave)
    · -- the start that gave up in this step does not come back, so neither side holds
      constructor
      · intro always
        have := always [e] (List.cons_prefix_cons.mpr ⟨rfl, List.nil_prefix⟩)
        rw [show c.run [e] = c.step e from rfl, back] at this
        cases this
      · intro none
        exact absurd (none t (run_gaveUp orderly events gave)) before

theorem refuses_of_stopped (stopped : c.phase = .stopped) : Refuses c where
  stopped := stopped
  start := by
    simp [step, invoke, stopped]

theorem step_stop_phase (c : Client) (clear : Bool) :
    (c.step (.invoke (.stop clear))).phase = .stopped := by
  have entered : ∀ {e d : Client} {t}, Entry e t (.stop clear) d → d.phase = e.phase := by
    intro e d t entry
    cases entry with
    | stops _ _ _ _ _ => rfl
    | refused live _ _ => exact absurd rfl (live clear)
    | begins live _ => exact absurd rfl (live clear)
  have beginning := c.invoke_beginning (.stop clear)
  simp only [step]
  generalize c.invoke (.stop clear) = d at beginning
  cases beginning with
  | joins _ b _ =>
    obtain ⟨tasks, eq⟩ := c.halting.tellBackground_tasks b
    rw [eq]
    rfl
  | stop _ _ queueing =>
    cases queueing with
    | waits _ _ => rfl
    | turns _ entry => exact entered entry

/-- What a client may have come to, by whatever steps. -/
def Reached (c : Client) : Prop :=
  ∃ options path listening choice disk new events,
    create options path listening choice disk = .ok new ∧ c = new.run events

theorem Reached.orderly (h : Reached c) : Orderly c := by
  obtain ⟨_, _, _, _, _, new, events, created, rfl⟩ := h
  exact run_orderly (create_orderly created) events

/-- A client that was told to stop is never ready again, and it refuses to start at every
later moment unless a start gives up that had not done so before. -/
theorem refuses_after_stop_iff (reached : Reached c) (clear : Bool) (events : List Event) :
    ((∀ seen, seen <+: events → Refuses ((c.step (.invoke (.stop clear))).run seen)) ↔
      ∀ t, ((c.step (.invoke (.stop clear))).run events).GaveUp t →
        (c.step (.invoke (.stop clear))).GaveUp t) ∧
    ∀ seen, seen <+: events → ((c.step (.invoke (.stop clear))).run seen).phase ≠ .running := by
  have orderly := step_orderly reached.orderly (.invoke (.stop clear))
  have stopped := c.step_stop_phase clear
  refine ⟨⟨fun refuses => ?_, fun none seen prefixed => ?_⟩, fun seen _ => ?_⟩
  · exact (run_stopped_iff orderly stopped events).mp fun seen prefixed =>
      (refuses seen prefixed).stopped
  · exact refuses_of_stopped ((run_stopped_iff orderly stopped events).mpr none seen prefixed)
  · exact (run_orderly orderly seen).dead ((run_later _ seen).stopped (orderly.halted stopped))

namespace Sample

def options : Options :=
  { metaAddresses := [⟨"m", 9559⟩], localHost := ⟨"a", 1⟩, role := .graph, retryCount := 0
    readyRetry := 1 }

/-- A start has asked the meta service, which has not answered yet. -/
def asking : List Event := [.invoke .start, .call 0 .heartbeat]

def refusal : Event := .answer 0 .heartbeat 0 (.error (.rpcFailed (.reported "down")))

end Sample

/-- The probe that fails after the stop takes the client back to where it began. -/
theorem created_again_after_stop : ∃ c, create Sample.options "cluster.id" false 0 .empty = .ok c ∧
    ((c.run Sample.asking).step (.invoke (.stop false))).phase = .stopped ∧
    (((c.run Sample.asking).step (.invoke (.stop false))).run [Sample.refusal]).phase = .created :=
  ⟨_, rfl, by decide +kernel, by decide +kernel⟩

theorem refuses_no_longer_in_sample : ∃ c, Reached c ∧
    ¬ ∀ seen, seen <+: [Sample.refusal] →
      Refuses ((c.step (.invoke (.stop false))).run seen) := by
  obtain ⟨new, created⟩ : ∃ c, create Sample.options "cluster.id" false 0 .empty = .ok c :=
    ⟨_, rfl⟩
  have reached : Reached (new.run Sample.asking) :=
    ⟨_, _, _, _, _, new, Sample.asking, created, rfl⟩
  refine ⟨_, reached, fun refuses => ?_⟩
  cases created
  obtain ⟨n, tries, words, task⟩ :=
    (refuses_after_stop_iff reached false [Sample.refusal]).1.mp refuses 0 ⟨1, 1, _, rfl⟩
  cases task

end ClusterClient.Client
