import ClusterClient.Proofs.Client.Standings
import ClusterClient.Proofs.Freshness.Loading
import Mathlib.Data.List.Induction
import Mathlib.Data.List.Infix
/-!
What a step does to the work of a task, and the heartbeats among it: a heartbeat says what
the client was when it was begun.
-/
namespace ClusterClient

/-- Whether the job has its client send a heartbeat. -/
def Job.beats : Job → Bool
  | .start _ | .refresh | .background _ | .heartbeat => true
  | _ => false

namespace Client

variable {c d : Client} {t : TaskId} {job job' : Job} {w w' : Work} {q : Query}

/-- A heartbeat of the task is under way, and this is what it says. -/
def Beating (c : Client) (t : TaskId) (r : HeartbeatRequest) : Prop :=
  ∃ job w, c.task? t = some ⟨job, .working w⟩ ∧ w.stage = .beat r

/-- Where the work of a task comes from that is at work after a step. -/
inductive Worked (c : Client) (t : TaskId) : Job → Work → Prop
  | same {job job' : Job} {w : Work} (task : c.task? t = some ⟨job, .working w⟩)
      (kept : Continues job job') : Worked c t job' w
  | begun {job : Job} {stage : Stage} (idle : ¬ c.Working t)
      (tells : ∀ r, stage = .beat r → r = c.heartbeatRequest ∧ job.beats = true)
      (first : job.fills = true → stage = c.firstStage job) :
    Worked c t job (.begin none stage)
  | asks {job : Job} {w : Work} (task : c.task? t = some ⟨job, .working w⟩) {q : Query}
      (listed : q ∈ w.stage.queries ∨ w.slots q ≠ .idle) (slot : Slot q.Value)
      (open_ : q ∈ w.stage.queries → Work.Open { w with slots := w.slots.set q slot }) :
    Worked c t job { w with slots := w.slots.set q slot }
  | next {job : Job} {w : Work} (task : c.task? t = some ⟨job, .working w⟩)
      (remote : Option Int64) {stage : Stage} (apart : ∀ r, stage ≠ .beat r)
      (told : remote = w.remote ∨ ∃ r, w.stage = .beat r) :
    Worked c t job (.begin remote stage)

theorem open_set {slot : Slot q.Value} (unanswered : ∀ v, slot ≠ .done v)
    (listed : q ∈ w.stage.queries) : Work.Open { w with slots := w.slots.set q slot } :=
  ⟨q, listed, fun v done => unanswered v ((slots_set_self ..).symm.trans done)⟩

theorem firstStage_beat {r : HeartbeatRequest} (stage : c.firstStage job = .beat r) :
    r = c.heartbeatRequest ∧ job.beats = true := by
  cases job <;> simp only [firstStage] at stage
  case heartbeat => exact ⟨(Stage.beat.inj stage).symm, rfl⟩
  case loadData | loadConfig | ask | stop => cases stage
  all_goals
    split at stage
    · cases stage
    · exact ⟨(Stage.beat.inj stage).symm, rfl⟩

theorem Entry.worked (h : Entry c t job d) (idle : ¬ c.Working t)
    (task : d.task? t = some ⟨job', .working w⟩) : Worked c t job' w := by
  cases h with
  | stops clear directory estimates _ _ =>
    cases ((c.release.task?_finish t (.stop clear) (.ok .nothing) t).trans (if_pos rfl)).symm.trans
      task
  | refused live _ ends => exact absurd ⟨_, _, task⟩ (ends.not_working live)
  | begins _ _ =>
    rw [task?_stand, if_pos rfl] at task
    cases task
    exact .begun idle (fun _ => firstStage_beat) fun _ => rfl

theorem Worked.before {b : Client} (h : Worked c t job w) (same : c.task? t = b.task? t)
    (alike : c.heartbeatRequest = b.heartbeatRequest) (options : c.options = b.options) :
    Worked b t job w := by
  cases h with
  | same task kept => exact .same (same.symm.trans task) kept
  | begun idle tells first =>
    have stage : c.firstStage job = b.firstStage job := by
      cases job <;> simp only [firstStage, alike, options]
    refine .begun (fun ⟨job, w, working⟩ => idle ⟨job, w, same.trans working⟩)
      (fun r beat => ?_) fun fills => (first fills).trans stage
    exact alike ▸ tells r beat
  | asks task listed slot open_ => exact .asks (same.symm.trans task) listed slot open_
  | next task remote apart told => exact .next (same.symm.trans task) remote apart told

theorem Queueing.worked (h : Queueing c t job d) (idle : ¬ c.Working t)
    (task : d.task? t = some ⟨job', .working w⟩) : Worked c t job' w := by
  cases h with
  | waits u _ => cases ((Client.task?_stand ..).trans (if_pos rfl)).symm.trans task
  | turns _ entry => exact (entry.worked idle task).before rfl rfl rfl

theorem Resuming.worked (h : Resuming c t d) (task : d.task? t = some ⟨job', .working w⟩) :
    Worked c t job' w := by
  have idle : ¬ c.Working t := fun ⟨_, _, working⟩ => h.not_working working
  cases h with
  | enters _ _ entry => exact entry.worked idle task
  | ends _ => cases ((Client.task?_finish ..).trans (if_pos rfl)).symm.trans task
  | rested _ queueing => exact queueing.worked idle task
  | joined _ _ queueing => exact queueing.worked idle task

theorem Beginning.worked {op : Operation} (h : Beginning c op d) (idle : ¬ c.Working c.nextTask)
    (task : d.task? c.nextTask = some ⟨job', .working w⟩) : Worked c c.nextTask job' w := by
  cases h with
  | start _ queueing => exact (queueing.worked idle task).before rfl rfl rfl
  | declined _ _ _ _ => cases ((Client.task?_finish ..).trans (if_pos rfl)).symm.trans task
  | joins clear b _ => cases ((Client.task?_stand ..).trans (if_pos rfl)).symm.trans task
  | stop clear _ queueing => exact (queueing.worked idle task).before rfl rfl rfl
  | ignored => cases ((Client.task?_finish ..).trans (if_pos rfl)).symm.trans task
  | refresh queueing => exact (queueing.worked idle task).before rfl rfl rfl
  | loadData queueing => exact (queueing.worked idle task).before rfl rfl rfl
  | loadConfig queueing => exact (queueing.worked idle task).before rfl rfl rfl
  | heartbeat =>
    cases ((Client.task?_stand ..).trans (if_pos rfl)).symm.trans task
    exact .begun idle (fun r stage => ⟨(Stage.beat.inj stage).symm, rfl⟩) nofun
  | ask q request =>
    cases ((Client.task?_stand ..).trans (if_pos rfl)).symm.trans task
    exact .begun idle nofun nofun

theorem Dialling.worked (h : Dialling c t q d) (task : d.task? t = some ⟨job', .working w⟩) :
    Worked c t job' w := by
  cases h with
  | made before estimates s _ listed =>
    cases ((Client.task?_stand ..).trans (if_pos rfl)).symm.trans task
    refine .asks before (listed.imp_right fun ⟨_, _, pausing⟩ => ?_) _ (open_set (by simp))
    simp [pausing]

/-- The next group of calls is never a heartbeat. -/
theorem Built.not_beat {hosts : List HostItem} {built : List Space} {ids : List SpaceId}
    (h : Built c job w hosts built ids d (.more w')) :
    ∃ stage, w' = .begin w.remote stage ∧ ∀ r, stage ≠ .beat r := by
  cases h with
  | next id rest => exact ⟨_, rfl, nofun⟩
  | configs _ _ => exact ⟨_, rfl, nofun⟩

theorem Advancing.goes_on (h : Advancing c job w d (.more w')) :
    w' = w ∧ w.Open ∨ ∃ remote stage, w' = .begin remote stage ∧ (∀ r, stage ≠ .beat r) ∧
      (remote = w.remote ∨ ∃ r, w.stage = .beat r) := by
  have built : ∀ {hosts built ids}, Built c job w hosts built ids d (.more w') →
      w' = w ∧ w.Open ∨ ∃ remote stage, w' = .begin remote stage ∧ (∀ r, stage ≠ .beat r) ∧
        (remote = w.remote ∨ ∃ r, w.stage = .beat r) := by
    intro hosts built ids h
    obtain ⟨stage, eq, apart⟩ := h.not_beat
    exact .inr ⟨_, stage, eq, apart, .inl rfl⟩
  cases h with
  | waits open_ => exact .inl ⟨rfl, open_⟩
  | beats r stage _ _ _ _ beaten =>
    cases beaten with
    | started n => exact .inr ⟨_, _, rfl, nofun, .inr ⟨r, stage⟩⟩
    | later _ _ => exact .inr ⟨_, _, rfl, nofun, .inr ⟨r, stage⟩⟩
  | lists _ _ _ _ h => exact built h
  | builds _ _ _ _ _ _ _ _ _ _ _ _ h => exact built h

theorem Answering.worked {s : Sending} {outcome : Except Fault (MetaReply q.Value)}
    (calling : c.Calling t q job w s) (h : Answering c t q job w outcome d)
    (live : ∀ clear, job ≠ .stop clear) (task : d.task? t = some ⟨job', .working w'⟩) :
    Worked c t job' w' := by
  have listed : q ∈ w.stage.queries ∨ w.slots q ≠ .idle := .inr (by simp [calling.slot])
  cases h with
  | again _ _ _ =>
    cases ((Client.task?_stand ..).trans (if_pos rfl)).symm.trans task
    exact .asks calling.task listed _ (open_set (by simp))
  | pauses _ _ _ =>
    cases ((Client.task?_stand ..).trans (if_pos rfl)).symm.trans task
    exact .asks calling.task listed _ (open_set (by simp))
  | fails _ _ ending _ => exact absurd ⟨_, _, task⟩ (ending.not_working live)
  | ends _ _ _ _ ending _ => exact absurd ⟨_, _, task⟩ (ending.not_working live)
  | advances _ leader v advancing _ =>
    cases ((Client.task?_stand ..).trans (if_pos rfl)).symm.trans task
    rcases advancing.goes_on with ⟨rfl, open_⟩ | ⟨remote, stage, rfl, apart, told⟩
    · exact .asks calling.task listed _ fun _ => open_
    · exact .next calling.task remote apart told

/-- All that the work of a task can come from. -/
theorem step_worked (regular : Regular c) (e : Event)
    (task : (c.step e).task? t = some ⟨job', .working w⟩) : Worked c t job' w := by
  by_cases eq : t = c.subject e
  · subst eq
    have move := c.step_move e
    generalize c.step e = d at move task
    cases move with
    | nothing => exact .same task (.same _)
    | begins beginning =>
      refine beginning.worked (fun ⟨_, _, working⟩ => ?_) task
      cases (regular.fresh _ (Nat.le_refl _)).symm.trans working
    | calls dialling => exact dialling.worked task
    | wakes dialling => exact dialling.worked task
    | resumes resuming => exact resuming.worked task
    | answers calling answering =>
      exact answering.worked calling (regular.apt _ _ _ calling.task).worker task
  · cases c.step_beside e eq with
    | same same => exact .same (same.symm.trans task) (.same _)
    | spawned _ after => cases after.symm.trans task
    | told _ _ before after =>
      cases after.symm.trans task
      exact .same before (.told _)

/-- The calls of a work are those of its group, and not all of them were answered; only some jobs
have a heartbeat, which tells them the time of the last change. -/
structure Fit (job : Job) (w : Work) : Prop where
  listed : ∀ q, w.slots q ≠ .idle → q ∈ w.stage.queries
  open_ : w.Open
  beats : ∀ r, w.stage = .beat r → job.beats = true
  untold : job.beats = false ∨ (∃ r, w.stage = .beat r) → w.remote = none

theorem Continues.beats (h : Continues job job') : job'.beats = job.beats := by
  cases h <;> rfl

theorem Worked.fit (h : Worked c t job w)
    (all : ∀ job w, c.task? t = some ⟨job, .working w⟩ → Fit job w) : Fit job w := by
  cases h with
  | same task kept =>
    have fit := all _ _ task
    exact ⟨fit.listed, fit.open_, fun r stage => kept.beats.trans (fit.beats r stage),
      fun none => fit.untold (kept.beats ▸ none)⟩
  | begun _ tells _ =>
    exact ⟨fun q busy => absurd rfl busy, Work.open_begin _ _, fun r stage => (tells r stage).2,
      fun _ => rfl⟩
  | next task remote apart told =>
    refine ⟨fun q busy => absurd rfl busy, Work.open_begin _ _,
      fun r stage => absurd stage (apart r), fun none => ?_⟩
    have quiet := none.resolve_right fun ⟨r, stage⟩ => apart r stage
    rcases told with same | ⟨r, stage⟩
    · exact same.trans ((all _ _ task).untold (.inl quiet))
    · rw [(all _ _ task).beats r stage] at quiet
      cases quiet
  | @asks _ w task q listed slot open_ =>
    have fit := all _ _ task
    refine ⟨fun q' busy => ?_, open_ (listed.elim id (fit.listed q)), fit.beats, fit.untold⟩
    by_cases eq : q' = q
    · subst eq
      exact listed.elim id (fit.listed q')
    · refine fit.listed q' fun idle => busy ?_
      exact (slots_set_of_ne w.slots slot eq).trans idle

structure Tidy (c : Client) : Prop extends Regular c where
  fit : ∀ t job w, c.task? t = some ⟨job, .working w⟩ → Fit job w

theorem step_tidy (h : Tidy c) (e : Event) : Tidy (c.step e) where
  toRegular := step_regular h.toRegular e
  fit t _ _ task := (step_worked h.toRegular e task).fit (h.fit t)

theorem run_tidy (h : Tidy c) (events : List Event) : Tidy (c.run events) :=
  run_keeps (P := Tidy) (fun _ e h => step_tidy h e) h events

theorem create_tidy {options : Options} {path : String} {listening : Bool} {choice : Nat}
    {disk : FileTree} (created : create options path listening choice disk = .ok c) : Tidy c where
  toRegular := create_regular created
  fit t _ _ task := by cases ((create_pristine created).tasks t).symm.trans task

/-- The heartbeat of the task was begun in the run, and says what the client was then. -/
def Begun (c : Client) (events : List Event) (t : TaskId) (r : HeartbeatRequest) : Prop :=
  ∃ before e after, events = before ++ e :: after ∧ ¬ (c.run before).Working t ∧
    r = (c.run before).heartbeatRequest ∧
      ∀ seen, seen <+: after → (c.run (before ++ e :: seen)).Beating t r

theorem Begun.concat {events : List Event} {r : HeartbeatRequest} (h : Begun c events t r)
    {e : Event} (beating : (c.run (events ++ [e])).Beating t r) : Begun c (events ++ [e]) t r := by
  obtain ⟨before, first, after, rfl, idle, eq, since⟩ := h
  refine ⟨before, first, after ++ [e], by simp, idle, eq, fun seen prefixed => ?_⟩
  rcases List.prefix_concat_iff.mp prefixed with rfl | prefixed
  · simpa using beating
  · exact since seen prefixed

/-- A task that is at work on a cycle or a load has been at it since some step of the run, in
which it made a beginning. -/
def Entered (c : Client) (events : List Event) (t : TaskId) : Prop :=
  ∃ before e after job, events = before ++ e :: after ∧ ¬ (c.run before).Working t ∧
    (c.run (before ++ [e])).task? t =
      some ⟨job, .working (.begin none ((c.run before).firstStage job))⟩ ∧ job.fills = true ∧
    ∀ seen, seen <+: after → (c.run (before ++ e :: seen)).Busy t

theorem Entered.concat {events : List Event} (h : Entered c events t) {e : Event}
    (busy : (c.run (events ++ [e])).Busy t) : Entered c (events ++ [e]) t := by
  obtain ⟨before, first, after, job, rfl, idle, task, fills, since⟩ := h
  refine ⟨before, first, after ++ [e], job, by simp, idle, task, fills, fun seen prefixed => ?_⟩
  rcases List.prefix_concat_iff.mp prefixed with rfl | prefixed
  · simpa using busy
  · exact since seen prefixed

theorem Continues.fills (h : Continues job job') : job'.fills = job.fills := by
  cases h <;> rfl

theorem run_entered (regular : Regular c) (idle : ¬ c.Busy t) (events : List Event)
    (busy : (c.run events).Busy t) : Entered c events t := by
  induction events using List.reverseRecOn with
  | nil => exact absurd busy idle
  | append_singleton events e ih =>
    obtain ⟨job, w, task, fills⟩ := busy
    have busy : (c.run (events ++ [e])).Busy t := ⟨job, w, task, fills⟩
    rw [run_concat] at task
    cases step_worked (run_regular regular events) e task with
    | same before kept => exact (ih ⟨_, w, before, kept.fills.symm.trans fills⟩).concat busy
    | asks before _ _ _ => exact (ih ⟨_, _, before, fills⟩).concat busy
    | next before _ _ _ => exact (ih ⟨_, _, before, fills⟩).concat busy
    | begun resting _ first =>
      refine ⟨events, e, [], job, rfl, resting, ?_, fills, fun seen prefixed => ?_⟩
      · rw [run_concat, task, first fills]
      · rwa [List.prefix_nil.mp prefixed]

end Client

end ClusterClient
