import ClusterClient.Proofs.Client.Standings
import ClusterClient.Proofs.Freshness.World
import ClusterClient.Proofs.Stopping
/-!
What a stop is good for once it has returned. A cycle that was going on comes to its end
first, one that still waits for its turn has no effect any more, and so the caches that the
stop has emptied stay empty.
-/
namespace ClusterClient.Client

variable {c d : Client} {s t u : TaskId} {job : Job} {w : Work} {q : Query} {clear : Bool}

/-- Nothing that the client has cached, believes or has told is another. -/
structure Untouched (c d : Client) : Prop extends Quiet c d where
  estimates : d.estimates = c.estimates
  clusterId : d.clusterId = c.clusterId
  disk : d.disk = c.disk
  fatal : d.fatal = c.fatal

theorem Untouched.trans {b : Client} (h : Untouched b c) (h' : Untouched c d) : Untouched b d where
  directory := h'.directory.trans h.directory
  notices := h'.notices.trans h.notices
  watermark := h'.watermark.trans h.watermark
  estimates := h'.estimates.trans h.estimates
  clusterId := h'.clusterId.trans h.clusterId
  disk := h'.disk.trans h.disk
  fatal := h'.fatal.trans h.fatal

/-- The task has no effect, unless it is a start that gives up. -/
structure Spares (c d : Client) (t : TaskId) : Prop extends Untouched c d where
  phase : d.phase = c.phase ∨ d.GaveUp t

theorem conclude_spares (c : Client) (t : TaskId) (live : ∀ clear, job ≠ .stop clear) :
    Spares c (c.conclude t job (.error (.notReady .stopped))) t := by
  cases job with
  | stop clear => exact absurd rfl (live clear)
  | start n =>
    have quiet : c.release.report (.notReady .stopped) = c.release := rfl
    simp only [conclude, probed, quiet]
    split
    · exact ⟨⟨⟨rfl, rfl, rfl⟩, rfl, rfl, rfl, rfl⟩,
        .inr ⟨_, _, _, (task?_finish ..).trans (if_pos rfl)⟩⟩
    · exact ⟨⟨⟨rfl, rfl, rfl⟩, rfl, rfl, rfl, rfl⟩, .inl rfl⟩
  | background told =>
    cases told <;> exact ⟨⟨⟨rfl, rfl, rfl⟩, rfl, rfl, rfl, rfl⟩, .inl rfl⟩
  | _ => exact ⟨⟨⟨rfl, rfl, rfl⟩, rfl, rfl, rfl, rfl⟩, .inl rfl⟩

theorem enter_spares (stopped : c.stopped = true) (t : TaskId)
    (live : ∀ clear, job ≠ .stop clear) : Spares c (c.enter t job) t := by
  have refused := c.conclude_spares t live
  cases job with
  | stop clear => exact absurd rfl (live clear)
  | _ => simpa only [enter, stopped, if_true] using refused

theorem queue_spares (stopped : c.stopped = true) (t : TaskId)
    (live : ∀ clear, job ≠ .stop clear) : Spares c (c.queue t job) t := by
  unfold queue
  split
  · have spares := enter_spares (c := { c with holder := some t }) stopped t live
    have taken : Untouched c { c with holder := some t } := ⟨⟨rfl, rfl, rfl⟩, rfl, rfl, rfl, rfl⟩
    exact ⟨taken.trans spares.toUntouched, spares.phase⟩
  · exact ⟨⟨⟨rfl, rfl, rfl⟩, rfl, rfl, rfl, rfl⟩, .inl rfl⟩

theorem resume_spares (stopped : c.stopped = true)
    (live : ∀ clear standing, c.task? t ≠ some ⟨.stop clear, standing⟩) :
    Spares c (c.resume t) t := by
  have kept : Spares c c t := ⟨⟨⟨rfl, rfl, rfl⟩, rfl, rfl, rfl, rfl⟩, .inl rfl⟩
  have no_stop : ∀ {job standing}, c.task? t = some ⟨job, standing⟩ →
      ∀ clear, job ≠ .stop clear := by
    rintro _ standing task clear rfl
    exact live clear standing task
  unfold resume
  split
  · rename_i job task
    split
    · exact enter_spares stopped t (no_stop task)
    · exact kept
  · exact ⟨⟨⟨rfl, rfl, rfl⟩, rfl, rfl, rfl, rfl⟩, .inl rfl⟩
  · rename_i job _ task
    exact queue_spares stopped t (no_stop task)
  · rename_i job b task
    split
    · exact queue_spares stopped t (no_stop task)
    · exact kept
  · exact kept

/-- A stop has not come to its end. -/
def Stopping (c : Client) (t : TaskId) (clear : Bool) : Prop :=
  ∃ standing, c.task? t = some ⟨.stop clear, standing⟩ ∧ ∀ r, standing ≠ .done r

/-- A stop has its turn, and comes to its end with that. -/
structure Returns (c d : Client) (t : TaskId) (clear : Bool) : Prop where
  turn : c.holder = none ∨ c.holder = some t
  task : d.task? t = some ⟨.stop clear, .done (.ok .nothing)⟩
  emptied : clear = true → d.directory = .empty

theorem Entry.returns (h : Entry c t (.stop clear) d) (held : c.holder = some t) :
    Returns c d t clear := by
  cases h with
  | stops _ directory estimates _ emptied =>
    exact ⟨.inr held, (c.release.task?_finish t _ _ t).trans (if_pos rfl), emptied⟩
  | refused live _ _ => exact absurd rfl (live clear)
  | begins live _ => exact absurd rfl (live clear)

theorem Queueing.returns (h : Queueing c t (.stop clear) d) :
    d.Stopping t clear ∨ Returns c d t clear := by
  cases h with
  | waits u _ => exact .inl ⟨_, (Client.task?_stand ..).trans (if_pos rfl), by simp⟩
  | turns free entry =>
    have returns := entry.returns rfl
    exact .inr ⟨.inl free, returns.task, returns.emptied⟩

theorem Beginning.returns (h : Beginning c (.stop clear) d) :
    d.Stopping c.nextTask clear ∨ Returns c d c.nextTask clear := by
  cases h with
  | joins _ b _ => exact .inl ⟨_, (Client.task?_stand ..).trans (if_pos rfl), by simp⟩
  | stop _ _ queueing =>
    exact queueing.returns.imp id fun returns => ⟨returns.turn, returns.task, returns.emptied⟩

theorem Resuming.returns (h : Resuming c t d) {standing : Standing}
    (stop : c.task? t = some ⟨.stop clear, standing⟩) :
    d.Stopping t clear ∨ Returns c d t clear := by
  cases h with
  | enters task turn entry =>
    cases stop.symm.trans task
    exact .inr (entry.returns turn)
  | ends task => cases stop.symm.trans task
  | rested task queueing =>
    cases stop.symm.trans task
    exact queueing.returns
  | joined task _ queueing =>
    cases stop.symm.trans task
    exact queueing.returns

theorem Stopping.not_over (h : c.Stopping t clear) : c.isOver t = false := by
  obtain ⟨standing, task, live⟩ := h
  unfold isOver
  rw [task]
  cases standing with
  | done r => exact absurd rfl (live r)
  | _ => rfl

theorem Stopping.not_busy (h : c.Stopping t clear) : ¬ c.Busy t := by
  rintro ⟨job, w, task, fills⟩
  obtain ⟨standing, stop, _⟩ := h
  cases stop.symm.trans task
  cases fills

theorem step_stopping (regular : Regular c) (stopping : c.Stopping s clear) (e : Event) :
    (c.step e).Stopping s clear ∨ Returns c (c.step e) s clear := by
  obtain ⟨standing, stop, live⟩ := stopping
  have not_working : ∀ {job w}, c.task? s ≠ some ⟨job, .working w⟩ := by
    intro job w task
    cases stop.symm.trans task
    exact Suits.worker (regular.apt _ _ _ task) clear rfl
  by_cases eq : s = c.subject e
  · subst eq
    have move := c.step_move e
    generalize c.step e = d at move
    cases move with
    | nothing => exact .inl ⟨standing, stop, live⟩
    | begins _ =>
      rw [subject, regular.fresh _ (Nat.le_refl _)] at stop
      cases stop
    | calls dialling =>
      cases dialling with
      | made task _ _ => exact absurd task not_working
    | wakes dialling =>
      cases dialling with
      | made task _ _ => exact absurd task not_working
    | resumes resuming => exact resuming.returns stop
    | answers calling _ => exact absurd calling.task not_working
  · rcases step_stays regular.toOrderly e stop eq with same | ⟨_, background, _⟩
    · exact .inl ⟨standing, same, live⟩
    · cases background

theorem Regular.fresh_idle (h : Regular c) : ¬ c.Busy c.nextTask := by
  rintro ⟨_, _, task, _⟩
  cases (h.fresh _ (Nat.le_refl _)).symm.trans task

/-- No cycle is going on when a stop has its turn. -/
theorem Returns.nobody (h : Returns c d s clear) (regular : Regular c) (idle : ¬ c.Busy s)
    (u : TaskId) : ¬ c.Busy u := by
  intro busy
  have held := regular.holds busy
  rcases h.turn with free | own
  · cases free.symm.trans held
  · cases own.symm.trans held
    exact idle busy

/-- Only an answer to one of its calls ends a cycle. -/
theorem step_leaves (regular : Regular c) (busy : c.Busy u) {e : Event}
    (gone : ¬ (c.step e).Busy u) : ∃ q choice outcome, e = .answer u q choice outcome := by
  obtain ⟨job, w, task, fills⟩ := busy
  by_cases eq : u = c.subject e
  · subst eq
    have dials : ∀ {d : Client} {q}, Dialling c (c.subject e) q d → d.Busy (c.subject e) := by
      intro d q dialling
      cases dialling with
      | made at_work estimates s =>
        cases task.symm.trans at_work
        exact ⟨job, _, (Client.task?_stand ..).trans (if_pos rfl), fills⟩
    have move := c.step_move e
    generalize c.step e = d at move gone
    cases move with
    | nothing => exact absurd ⟨job, w, task, fills⟩ gone
    | begins _ =>
      rw [subject, regular.fresh _ (Nat.le_refl _)] at task
      cases task
    | calls dialling => exact absurd (dials dialling) gone
    | wakes dialling => exact absurd (dials dialling) gone
    | resumes resuming => exact absurd task resuming.not_working
    | answers _ _ => exact ⟨_, _, _, rfl⟩
  · refine absurd ?_ gone
    rcases step_stays regular.toOrderly e task eq with same | ⟨_, _, after⟩
    · exact ⟨job, w, same, fills⟩
    · exact ⟨_, w, after, rfl⟩

/-- What the one task is at goes on until an answer ends it, and all the while the other
task is not over. -/
def EndsBefore (c : Client) (events : List Event) (u s : TaskId) : Prop :=
  ∃ before q choice outcome after, events = before ++ .answer u q choice outcome :: after ∧
    (∀ seen, seen <+: before → (c.run seen).Busy u) ∧
    ¬ (c.run (before ++ [.answer u q choice outcome])).Busy u ∧
    ∀ seen, seen <+: before ++ [.answer u q choice outcome] → (c.run seen).isOver s = false

theorem forall_prefix_cons {p : Client → Prop} {e : Event} {events : List Event} (first : p c)
    (rest : ∀ seen, seen <+: events → p ((c.step e).run seen)) :
    ∀ seen, seen <+: e :: events → p (c.run seen) := by
  intro seen prefixed
  cases seen with
  | nil => exact first
  | cons e' seen =>
    obtain ⟨rfl, tail⟩ := List.cons_prefix_cons.mp prefixed
    exact rest seen tail

theorem run_ends_before (regular : Regular c) (busy : c.Busy u) (stopping : c.Stopping s clear)
    (events : List Event) (ended : (c.run events).isOver s = true) :
    EndsBefore c events u s := by
  induction events generalizing c with
  | nil =>
    rw [show c.run [] = c from rfl, stopping.not_over] at ended
    cases ended
  | cons e events ih =>
    have open_ := stopping.not_over
    rcases step_stopping regular stopping e with still | returns
    · by_cases goes : (c.step e).Busy u
      · obtain ⟨before, q, choice, outcome, after, rfl, works, gone, waits⟩ :=
          ih (step_regular regular e) goes still ended
        exact ⟨e :: before, q, choice, outcome, after, rfl,
          forall_prefix_cons (p := (Busy · u)) busy works, gone,
          forall_prefix_cons (p := (isOver · s = false)) open_ waits⟩
      · obtain ⟨q, choice, outcome, rfl⟩ := step_leaves regular busy goes
        refine ⟨[], q, choice, outcome, events, rfl, ?_, goes,
          forall_prefix_cons (p := (isOver · s = false)) open_ ?_⟩
        · intro seen prefixed
          rw [List.prefix_nil.mp prefixed]
          exact busy
        · intro seen prefixed
          rw [List.prefix_nil.mp prefixed]
          exact still.not_over
    · exact absurd busy (returns.nobody regular stopping.not_busy u)

/-- A client whose caches are empty for good. -/
structure AtRest (c : Client) : Prop where
  stopped : c.stopped = true
  idle : ∀ t, ¬ c.Busy t
  empty : c.directory = .empty

theorem Suits.fills (h : Suits job w) : job.fills = job.cycles := by
  cases job with
  | stop clear => exact absurd rfl (h.worker clear)
  | _ => rfl

theorem Regular.suits (h : Regular c) (t : TaskId) (job : Job) (w : Work)
    (task : c.task? t = some ⟨job, .working w⟩) : Suits job w := h.apt t job _ task

theorem Returns.atRest (h : Returns c d s true) (regular : Regular c) (stopped : d.stopped = true)
    (idle : ¬ c.Busy s) (kept : ∀ t, d.Busy t → c.Busy t) : AtRest d where
  stopped := stopped
  idle t busy := h.nobody regular idle t (kept t busy)
  empty := h.emptied rfl

theorem step_atRest (regular : Regular c) (h : AtRest c) (e : Event) :
    AtRest (c.step e) ∧ Quiet c (c.step e) := by
  have stopped := (c.step_later e).stopped h.stopped
  have idle : ∀ t, ¬ (c.step e).Busy t := fun t busy => h.idle t (step_busy regular e stopped busy)
  have quiet : Quiet c (c.step e) := by
    rcases step_cached regular.suits e with steady | cleared | ⟨job, w, task, cycles⟩
    · exact steady.toQuiet
    · exact ⟨cleared.directory.trans h.empty.symm, cleared.notices, cleared.watermark⟩
    · have fills := (regular.suits _ job w task).fills
      exact absurd ⟨job, w, task, fills.trans cycles⟩ (h.idle _)
  exact ⟨⟨stopped, idle, quiet.directory.trans h.empty⟩, quiet⟩

theorem run_atRest (regular : Regular c) (h : AtRest c) (events : List Event) :
    AtRest (c.run events) ∧ Quiet c (c.run events) := by
  induction events generalizing c with
  | nil => exact ⟨h, rfl, rfl, rfl⟩
  | cons e events ih =>
    obtain ⟨next, quiet⟩ := step_atRest regular h e
    obtain ⟨last, later⟩ := ih (step_regular regular e) next
    exact ⟨last, later.directory.trans quiet.directory, later.notices.trans quiet.notices,
      later.watermark.trans quiet.watermark⟩

theorem run_stopping (regular : Regular c) (stopped : c.stopped = true)
    (stopping : c.Stopping s true) (events : List Event)
    (ended : (c.run events).isOver s = true) : AtRest (c.run events) := by
  induction events generalizing c with
  | nil =>
    rw [show c.run [] = c from rfl, stopping.not_over] at ended
    cases ended
  | cons e events ih =>
    have regular' := step_regular regular e
    have stopped' := (c.step_later e).stopped stopped
    rcases step_stopping regular stopping e with still | returns
    · exact ih regular' stopped' still ended
    · have rests := returns.atRest regular stopped' stopping.not_busy fun t busy =>
        step_busy regular e stopped' busy
      exact (run_atRest regular' rests events).1

/-- Only those ask the meta service who were called to do just that. -/
def Asking (c : Client) (t : TaskId) (request : Request) : Prop :=
  (∃ w r, c.task? t = some ⟨.heartbeat, .working w⟩ ∧ request = .heartbeat r) ∨
    ∃ w, c.task? t = some ⟨.ask, .working w⟩

theorem Regular.asking (h : Regular c) (idle : ¬ c.Busy t) {request : Request}
    (asks : c.asks t q = some request) : c.Asking t request := by
  obtain ⟨job, w, sending, task, _, asked⟩ := asks_cases asks
  have suits := h.suits t job w task
  cases cycles : job.cycles with
  | true => exact absurd ⟨job, w, task, suits.fills.trans cycles⟩ idle
  | false =>
    rcases job_of_idle cycles with rfl | rfl
    · obtain ⟨r, stage⟩ := suits.heartbeat rfl
      rw [stage] at asked
      exact .inl ⟨w, r, task, asked.symm⟩
    · exact .inr ⟨w, task⟩

theorem Ending.aside {result : Except Fault Payload} (h : Ending c t job result d)
    (idle : job.cycles = false) : ∃ standing, d.task? t = some ⟨job, standing⟩ := by
  cases h with
  | answered _ result => exact ⟨_, (task?_finish ..).trans (if_pos rfl)⟩
  | finishes cycles _ _ _ _ =>
    rw [cycles] at idle
    cases idle
  | rests _ _ _ kinds =>
    rcases kinds with ⟨rfl, _⟩ | ⟨_, _, rfl, _⟩ <;> cases idle
  | _ => cases idle

theorem Answering.aside {outcome : Except Fault (MetaReply q.Value)}
    (h : Answering c t q job w outcome d) (idle : job.cycles = false) :
    ∃ standing, d.task? t = some ⟨job, standing⟩ := by
  cases h with
  | fails _ _ ending => exact ending.aside idle
  | ends _ _ _ _ ending => exact ending.aside idle
  | _ => exact ⟨_, (Client.task?_stand ..).trans (if_pos rfl)⟩

theorem invoke_spares (stopped : c.stopped = true) (op : Operation) {standing : Standing}
    (task : (c.invoke op).task? c.nextTask = some ⟨job, standing⟩) (fills : job.fills = true) :
    Untouched c (c.invoke op) ∧
      ((c.invoke op).phase = c.phase ∨ op = .start ∨ (c.invoke op).GaveUp c.nextTask) := by
  have numbered : Untouched c c.numbered := ⟨⟨rfl, rfl, rfl⟩, rfl, rfl, rfl, rfl⟩
  have queues : ∀ {job}, (∀ clear, job ≠ .stop clear) →
      Untouched c (c.numbered.queue c.nextTask job) ∧
        ((c.numbered.queue c.nextTask job).phase = c.phase ∨ op = .start ∨
          (c.numbered.queue c.nextTask job).GaveUp c.nextTask) := by
    intro job live
    have spares := queue_spares (c := c.numbered) stopped c.nextTask live
    exact ⟨numbered.trans spares.toUntouched, spares.phase.imp id .inr⟩
  cases op with
  | start =>
    refine ⟨?_, .inr (.inl rfl)⟩
    let probing : Client := { c.numbered with phase := .probing }
    have probes : Untouched c probing := ⟨⟨rfl, rfl, rfl⟩, rfl, rfl, rfl, rfl⟩
    have live : ∀ clear, Job.start 0 ≠ .stop clear := by simp
    simp only [invoke]
    split
    · exact probes.trans (queue_spares (c := probing) stopped c.nextTask live).toUntouched
    · exact ⟨⟨rfl, rfl, rfl⟩, rfl, rfl, rfl, rfl⟩
    · exact ⟨⟨rfl, rfl, rfl⟩, rfl, rfl, rfl, rfl⟩
    · exact ⟨⟨rfl, rfl, rfl⟩, rfl, rfl, rfl, rfl⟩
  | stop clear =>
    rcases (c.invoke_beginning (.stop clear)).returns with ⟨_, stop, _⟩ | returns
    · cases stop.symm.trans task
      cases fills
    · cases returns.task.symm.trans task
      cases fills
  | refresh =>
    simp only [invoke]
    split
    · exact queues (by simp)
    · exact queues (by simp)
    · exact ⟨⟨⟨rfl, rfl, rfl⟩, rfl, rfl, rfl, rfl⟩, .inl rfl⟩
    · exact ⟨⟨⟨rfl, rfl, rfl⟩, rfl, rfl, rfl, rfl⟩, .inl rfl⟩
  | loadData => exact queues (by simp)
  | loadConfig => exact queues (by simp)
  | heartbeat =>
    cases ((c.numbered.task?_stand _ .heartbeat _ _).trans (if_pos rfl)).symm.trans task
    cases fills
  | ask q request =>
    cases ((c.numbered.task?_stand _ .ask _ _).trans (if_pos rfl)).symm.trans task
    cases fills

/-- A cycle, a probe or a load that is not at work once the client was told to stop has no
effect with any of its steps. -/
theorem step_spares (regular : Regular c) (stopped : c.stopped = true) {e : Event}
    (idle : ¬ c.Busy (c.subject e)) {standing : Standing}
    (task : (c.step e).task? (c.subject e) = some ⟨job, standing⟩) (fills : job.fills = true) :
    Untouched c (c.step e) ∧
      ((c.step e).phase = c.phase ∨ e = .invoke .start ∨ (c.step e).GaveUp (c.subject e)) := by
  have kept : Untouched c c := ⟨⟨rfl, rfl, rfl⟩, rfl, rfl, rfl, rfl⟩
  have not_busy : ∀ {job w}, c.task? (c.subject e) = some ⟨job, .working w⟩ →
      job.fills = false := by
    intro job w task
    simpa using fun fills => idle ⟨job, w, task, fills⟩
  have dials : ∀ {d : Client} {q}, Dialling c (c.subject e) q d →
      d.task? (c.subject e) ≠ some ⟨job, standing⟩ := by
    intro d q dialling after
    cases dialling with
    | made before estimates s =>
      cases ((Client.task?_stand ..).trans (if_pos rfl)).symm.trans after
      rw [not_busy before] at fills
      cases fills
  cases e with
  | invoke op =>
    obtain ⟨untouched, phase⟩ := invoke_spares stopped op task fills
    exact ⟨untouched, phase.imp id (.imp (congrArg Event.invoke) id)⟩
  | call t q =>
    rcases c.call_cases t q with same | dialling
    · rw [step, same]
      exact ⟨kept, .inl rfl⟩
    · exact absurd task (dials dialling)
  | wake t q =>
    rcases c.wake_cases t q with same | dialling
    · rw [step, same]
      exact ⟨kept, .inl rfl⟩
    · exact absurd task (dials dialling)
  | answer t q choice outcome =>
    rcases c.answer_cases t q choice outcome with same | ⟨job', w, s, calling, answering⟩
    · rw [step, same]
      exact ⟨kept, .inl rfl⟩
    · have aside := not_busy calling.task
      have suits := regular.suits _ _ _ calling.task
      obtain ⟨standing', after⟩ := answering.aside (suits.fills ▸ aside)
      cases after.symm.trans task
      rw [aside] at fills
      cases fills
  | resume t =>
    rcases c.resume_cases t with same | resuming
    · rw [step, same]
      exact ⟨kept, .inl rfl⟩
    · have spares := resume_spares (t := t) stopped fun clear standing' stop => by
        -- a stop stays a stop
        rcases resuming.returns stop with ⟨_, still, _⟩ | returns
        · cases still.symm.trans task
          cases fills
        · cases returns.task.symm.trans task
          cases fills
      exact ⟨spares.toUntouched, spares.phase.imp id .inr⟩

theorem Reached.regular (h : Reached c) : Regular c := by
  obtain ⟨_, _, _, _, _, new, events, created, rfl⟩ := h
  exact run_regular (create_regular created) events

/-- The caches are empty, and nothing has been noted or told since the earlier moment. -/
structure Final (c d : Client) : Prop where
  directory : d.directory = .empty
  watermark : d.watermark = c.watermark
  notices : d.notices = c.notices
  requests : ∀ t q request, d.asks t q = some request → d.Asking t request

/-- Once a stop has returned, nothing fills the caches again, moves the watermark, tells the
listener anything or asks the meta service of its own accord. What was at work on a cycle, a
probe or a load when the stop was called is through with it before the stop returns. What
was not, or is not any more, never gets to work, and has no effect: there is only the start
that gives up, or a new one, to tell of itself in the phase. -/
theorem stop_is_final (reached : Reached c) (events : List Event)
    (moment : d = (c.step (.invoke (.stop true))).run events) :
    (d.isOver c.nextTask = true → (∀ later, Final d (d.run later)) ∧
      ∀ u, c.Busy u → EndsBefore (c.step (.invoke (.stop true))) events u c.nextTask) ∧
    (∀ u, ¬ c.Busy u ∨ ¬ d.Busy u → ∀ later, ¬ (d.run later).Busy u) ∧
    ∀ e job standing, ¬ d.Busy (d.subject e) →
      (d.step e).task? (d.subject e) = some ⟨job, standing⟩ → job.fills = true →
        Untouched d (d.step e) ∧ ((d.step e).phase = d.phase ∨ e = .invoke .start ∨
          (d.step e).GaveUp (d.subject e)) := by
  have regular := reached.regular
  have called := c.invoke_beginning (.stop true)
  have regular' := step_regular regular (.invoke (.stop true))
  have stopped := regular'.halted (c.step_stop_phase true)
  have begins : ∀ t, (c.step (.invoke (.stop true))).Busy t → c.Busy t :=
    fun t => step_busy regular _ stopped
  subst moment
  have later := run_regular regular' events
  have told := (run_later _ events).stopped stopped
  refine ⟨fun ended => ⟨fun more => ?_, fun u busy => ?_⟩, fun u idle more busy => ?_,
    fun e job standing idle task => step_spares later told idle task⟩
  · have rests : AtRest ((c.step (.invoke (.stop true))).run events) := by
      rcases called.returns with stopping | returns
      · exact run_stopping regular' stopped stopping events ended
      · have rests := returns.atRest regular stopped regular.fresh_idle begins
        exact (run_atRest regular' rests events).1
    obtain ⟨last, quiet⟩ := run_atRest later rests more
    exact ⟨last.empty, quiet.watermark, quiet.notices,
      fun t q request asks => (run_regular later more).asking (last.idle t) asks⟩
  · have going : (c.step (.invoke (.stop true))).Busy u := by
      refine Classical.byContradiction fun gone => ?_
      obtain ⟨_, _, _, eq⟩ := step_leaves regular busy gone
      cases eq
    rcases called.returns with stopping | returns
    · exact run_ends_before regular' going stopping events ended
    · -- the stop cannot have returned at once, for it was not its turn
      exact absurd busy (returns.nobody regular regular.fresh_idle u)
  · have now := run_busy later told more busy
    rcases idle with before | at_last
    · exact before (begins u (run_busy regular' stopped events now))
    · exact at_last now

/-- A probe fails after the call of the stop, and a load has to wait for both of them. -/
theorem stop_is_final_in_sample : ∃ c d, Reached c ∧
    d = (c.step (.invoke (.stop true))).run [.invoke .loadData, Sample.refusal, .resume 1] ∧
    d.isOver 1 = true ∧ c.Busy 0 ∧ (∀ later, Final d (d.run later)) ∧
    EndsBefore (c.step (.invoke (.stop true))) [.invoke .loadData, Sample.refusal, .resume 1] 0 1 ∧
    Untouched d (d.step (.resume 2)) := by
  obtain ⟨new, created⟩ : ∃ c, create Sample.options "cluster.id" false 0 .empty = .ok c :=
    ⟨_, rfl⟩
  have reached : Reached (new.run Sample.asking) :=
    ⟨_, _, _, _, _, new, Sample.asking, created, rfl⟩
  cases created
  have final := stop_is_final reached [.invoke .loadData, Sample.refusal, .resume 1] rfl
  have ended := final.1 rfl
  refine ⟨_, _, reached, rfl, rfl, ⟨.start 0, _, rfl, rfl⟩, ended.1,
    ended.2 0 ⟨.start 0, _, rfl, rfl⟩, (final.2.2 (.resume 2) .loadData _ ?_ rfl rfl).1⟩
  rintro ⟨_, _, task, _⟩
  cases task

end ClusterClient.Client
