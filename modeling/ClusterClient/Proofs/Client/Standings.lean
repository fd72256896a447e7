import ClusterClient.Proofs.Client.Frame
/-!
What a step makes of the task that it is about. Only a client that was not told to stop
lets a task begin a cycle, a probe or a load.
-/
namespace ClusterClient

/-- Whether the job is a cycle, a probe or a load, which may fill the caches. -/
def Job.fills : Job → Bool
  | .stop _ | .heartbeat | .ask => false
  | _ => true

theorem Job.cycles_of_fills {job : Job} (h : job.fills = true) : job.cycles = true := by
  cases job with
  | heartbeat | ask => cases h
  | _ => rfl

namespace Client

variable {c d : Client} {t u : TaskId} {job : Job} {w : Work} {q : Query}

/-- The standings that a task of a job can have. -/
def Apt (job : Job) : Standing → Prop
  | .working w => Suits job w
  | .done _ => True
  | _ => job.cycles = true

structure Regular (c : Client) : Prop extends Orderly c where
  apt : ∀ t job standing, c.task? t = some ⟨job, standing⟩ → Apt job standing

def Working (c : Client) (t : TaskId) : Prop := ∃ job w, c.task? t = some ⟨job, .working w⟩

theorem Ending.not_working {result : Except Fault Payload} (h : Ending c t job result d)
    (live : ∀ clear, job ≠ .stop clear) : ¬ d.Working t := by
  rintro ⟨_, _, task⟩
  cases h with
  | kept clear _ => exact live clear rfl
  | rests _ _ _ _ => cases ((Client.task?_stand ..).trans (if_pos rfl)).symm.trans task
  | _ => cases ((Client.task?_finish ..).trans (if_pos rfl)).symm.trans task

/-- The task is at work on a cycle, a probe or a load. -/
def Busy (c : Client) (t : TaskId) : Prop :=
  ∃ job w, c.task? t = some ⟨job, .working w⟩ ∧ job.fills = true

instance (c : Client) (t : TaskId) : Decidable (c.Busy t) :=
  decidable_of_iff ((match c.task? t with
    | some ⟨job, .working _⟩ => job.fills
    | _ => false) = true) <| by
    unfold Busy
    cases c.task? t with
    | none => simp
    | some task =>
      obtain ⟨job, standing⟩ := task
      cases standing <;> simp

/-- What may have become of a task. -/
inductive Became (c d : Client) (t : TaskId) : Prop
  | same (h : d.task? t = c.task? t)
  | idles {job : Job} {standing : Standing} (task : d.task? t = some ⟨job, standing⟩)
      (apt : Apt job standing) (idle : ∀ w, standing ≠ .working w)
  | begins {job : Job} {w : Work} (task : d.task? t = some ⟨job, .working w⟩)
      (suits : Suits job w) (going : job.fills = true → d.stopped = false)
  | goes {job : Job} {w w' : Work} (before : c.task? t = some ⟨job, .working w⟩)
      (after : d.task? t = some ⟨job, .working w'⟩) (suits : Suits job w')

theorem became_idle {standing : Standing} (apt : Apt job standing)
    (idle : ∀ w, standing ≠ .working w) : Became c (d.stand t job standing) t :=
  .idles ((d.task?_stand t job standing t).trans (if_pos rfl)) apt idle

theorem became_done {result : Except Fault Payload} : Became c (d.finish t job result) t :=
  became_idle trivial (not_working_done result)

/-- The step can as well be one of a client with the same tasks. -/
theorem Became.before {b : Client} (h : Became c d t) (same : c.task? t = b.task? t) :
    Became b d t := by
  cases h with
  | same h => exact .same (h.trans same)
  | idles task apt idle => exact .idles task apt idle
  | begins task suits going => exact .begins task suits going
  | goes before after suits => exact .goes (same.symm.trans before) after suits

/-- A cycle begins each group of calls anew. -/
theorem Advancing.suits {progress : Progress} (h : Advancing c job w d progress)
    (suits : Suits job w) {w' : Work} (more : progress = .more w') : Suits job w' := by
  cases cycles : job.cycles with
  | false =>
    rw [(h.idle suits cycles).2 w' more]
    exact suits
  | true =>
    have built : ∀ {hosts built ids d progress}, Built c job w hosts built ids d progress →
        progress = .more w' → Suits job w' := by
      intro hosts built ids d progress built more
      cases built with
      | next id rest =>
        cases more
        exact suits_begin suits.worker cycles _ _
      | data _ => cases more
      | bare _ _ => cases more
      | configs _ _ =>
        cases more
        exact suits_begin suits.worker cycles _ _
    cases h with
    | waits =>
      cases more
      exact suits
    | beats r _ hb _ clusterId disk beaten =>
      cases beaten with
      | ended _ result => cases more
      | failed fault => cases more
      | started n =>
        cases more
        exact suits_begin suits.worker cycles _ _
      | later _ _ =>
        cases more
        exact suits_begin suits.worker cycles _ _
    | lists _ _ _ _ h => exact built h more
    | builds _ _ _ _ _ _ _ _ _ _ _ _ h => exact built h more
    | configures _ _ _ _ => cases more
    | asked q request _ result => cases more

theorem Ending.became {result : Except Fault Payload} (h : Ending c t job result d)
    (live : ∀ clear, job ≠ .stop clear) : Became c d t := by
  cases h with
  | kept clear result => exact absurd rfl (live clear)
  | rests _ fatal next kinds =>
    refine became_idle ?_ (by simp)
    rcases kinds with ⟨_, rfl⟩ | ⟨_, _, _, rfl, _⟩ <;> rfl
  | _ => exact became_done

theorem Entry.became (h : Entry c t job d) (cycles : job.cycles = true) : Became c d t := by
  cases h with
  | stops clear directory estimates _ _ =>
    have ended := c.release.task?_finish t (.stop clear) (.ok .nothing) t
    exact .idles (ended.trans (if_pos rfl)) trivial (not_working_done _)
  | refused live _ ends => exact ends.became live
  | begins live going =>
    exact .begins ((c.task?_stand t job _ t).trans (if_pos rfl)) (suits_begin live cycles _ _)
      fun _ => going

theorem Queueing.became (h : Queueing c t job d) (cycles : job.cycles = true) :
    Became c d t := by
  cases h with
  | waits u _ => exact became_idle cycles (by simp)
  | turns _ entry => exact (entry.became cycles).before rfl

theorem Dialling.became (h : Dialling c t q d) (regular : Regular c) : Became c d t := by
  cases h with
  | made task estimates s =>
    exact .goes task ((Client.task?_stand ..).trans (if_pos rfl))
      (Suits.slots (regular.apt _ _ _ task) _)

theorem Resuming.became (h : Resuming c t d) (regular : Regular c) : Became c d t := by
  cases h with
  | enters task _ entry => exact entry.became (regular.apt _ _ _ task)
  | ends _ => exact became_done
  | rested task queueing => exact queueing.became (regular.apt _ _ _ task)
  | joined task _ queueing => exact queueing.became (regular.apt _ _ _ task)

theorem Answering.became {outcome : Except Fault (MetaReply q.Value)}
    (h : Answering c t q job w outcome d) (task : c.task? t = some ⟨job, .working w⟩)
    (suits : Suits job w) : Became c d t := by
  have goes : ∀ {e : Client} {w' : Work}, Suits job w' →
      Became c (e.stand t job (.working w')) t := by
    intro e w' suits'
    exact .goes task ((e.task?_stand t job _ t).trans (if_pos rfl)) suits'
  cases h with
  | again estimates s => exact goes (suits.slots _)
  | pauses estimates s => exact goes (suits.slots _)
  | fails estimates fault ending => exact (ending.became suits.worker).before rfl
  | advances estimates leader v advancing => exact goes (advancing.suits (suits.slots _) rfl)
  | ends estimates leader v advancing ending =>
    refine (ending.became suits.worker).before ?_
    rw [task?, advancing.alike.tasks, task?]

theorem Beginning.became {op : Operation} (h : Beginning c op d) : Became c d c.nextTask := by
  have aside : ∀ {e : Client} {job w}, Suits job w → job.fills = false →
      Became c (e.stand c.nextTask job (.working w)) c.nextTask := by
    intro e job w suits idle
    refine .begins ((e.task?_stand _ job _ _).trans (if_pos rfl)) suits fun fills => ?_
    rw [idle] at fills
    cases fills
  cases h with
  | start _ queueing => exact (queueing.became rfl).before rfl
  | declined result _ _ _ => exact became_done
  | joins clear b _ => exact became_idle rfl (by simp)
  | stop clear _ queueing => exact (queueing.became rfl).before rfl
  | ignored => exact became_done
  | refresh queueing => exact (queueing.became rfl).before rfl
  | loadData queueing => exact (queueing.became rfl).before rfl
  | loadConfig queueing => exact (queueing.became rfl).before rfl
  | heartbeat => exact aside ⟨by simp, fun _ => ⟨_, rfl⟩, nofun⟩ rfl
  | ask q request => exact aside ⟨by simp, nofun, fun _ => ⟨_, _, rfl⟩⟩ rfl

theorem step_became (regular : Regular c) (e : Event) : Became c (c.step e) (c.subject e) := by
  have move := c.step_move e
  generalize c.step e = d at move
  cases move with
  | nothing => exact .same rfl
  | begins beginning => exact beginning.became
  | calls dialling => exact dialling.became regular
  | wakes dialling => exact dialling.became regular
  | resumes resuming => exact resuming.became regular
  | answers calling answering =>
    exact answering.became calling.task (regular.apt _ _ _ calling.task)

theorem Became.apt (h : Became c d t) (regular : Regular c) {standing : Standing}
    (task : d.task? t = some ⟨job, standing⟩) : Apt job standing := by
  cases h with
  | same same => exact regular.apt t job standing (same ▸ task)
  | idles after apt _ =>
    cases after.symm.trans task
    exact apt
  | begins after suits _ =>
    cases after.symm.trans task
    exact suits
  | goes _ after suits =>
    cases after.symm.trans task
    exact suits

theorem Beside.apt (h : Beside c d u) (regular : Regular c) {standing : Standing}
    (task : d.task? u = some ⟨job, standing⟩) : Apt job standing := by
  cases h with
  | same same => exact regular.apt u job standing (same ▸ task)
  | spawned _ after =>
    cases after.symm.trans task
    rfl
  | told told _ before after =>
    cases after.symm.trans task
    have apt := regular.apt _ _ _ before
    cases standing with
    | working w => exact ⟨nofun, nofun, nofun⟩
    | _ => exact apt

theorem step_regular (h : Regular c) (e : Event) : Regular (c.step e) where
  toOrderly := step_orderly h.toOrderly e
  apt u job standing task := by
    by_cases eq : u = c.subject e
    · subst eq
      exact (step_became h e).apt h task
    · exact (c.step_beside e eq).apt h task

theorem run_regular (h : Regular c) (events : List Event) : Regular (c.run events) :=
  Client.run_keeps (P := Regular) (fun _ e h => step_regular h e) h events

/-- What every step of a regular client keeps is kept by every run of it. -/
theorem Regular.run_keeps {P : Client → Prop} (regular : Regular c)
    (steps : ∀ c e, Regular c → P c → P (step c e)) (h : P c) (events : List Event) :
    P (c.run events) :=
  (Client.run_keeps (P := fun c => Regular c ∧ P c)
    (fun c e h => ⟨step_regular h.1 e, steps c e h.1 h.2⟩) ⟨regular, h⟩ events).2

theorem create_regular {options : Options} {path : String} {listening : Bool} {choice : Nat}
    {disk : FileTree} (h : create options path listening choice disk = .ok c) : Regular c where
  toOrderly := create_orderly h
  apt t job standing task := by
    rw [(create_pristine h).tasks] at task
    cases task

theorem Regular.holds (h : Regular c) (busy : c.Busy t) : c.holder = some t := by
  obtain ⟨job, w, task, fills⟩ := busy
  exact h.locked t job w task (Job.cycles_of_fills fills)

/-- A task that is told to end is at what it was at. -/
theorem Beside.busy (h : Beside c d u) (busy : d.Busy u) : c.Busy u := by
  obtain ⟨job, w, task, fills⟩ := busy
  cases h with
  | same same => exact ⟨job, w, same ▸ task, fills⟩
  | spawned _ after => cases after.symm.trans task
  | told told _ before after =>
    cases after.symm.trans task
    exact ⟨_, w, before, rfl⟩

theorem Became.busy (h : Became c d t) (stopped : d.stopped = true) (busy : d.Busy t) :
    c.Busy t := by
  obtain ⟨job, w, task, fills⟩ := busy
  cases h with
  | same same => exact ⟨job, w, same ▸ task, fills⟩
  | idles after _ idle =>
    cases after.symm.trans task
    exact absurd rfl (idle w)
  | begins after _ going =>
    cases after.symm.trans task
    rw [going fills] at stopped
    cases stopped
  | goes before after _ =>
    cases after.symm.trans task
    exact ⟨job, _, before, fills⟩

/-- No task gets to work on a cycle, a probe or a load of a client that was told to stop. -/
theorem step_busy (regular : Regular c) (e : Event) (stopped : (c.step e).stopped = true)
    (busy : (c.step e).Busy u) : c.Busy u := by
  by_cases eq : u = c.subject e
  · subst eq
    exact (step_became regular e).busy stopped busy
  · exact (c.step_beside e eq).busy busy

theorem run_busy (regular : Regular c) (stopped : c.stopped = true) (events : List Event)
    (busy : (c.run events).Busy u) : c.Busy u := by
  induction events generalizing c with
  | nil => exact busy
  | cons e events ih =>
    have told := (c.step_later e).stopped stopped
    exact step_busy regular e told (ih (step_regular regular e) told busy)

/-- What a job can have become: a start may have failed once more, and a background task may
have been told to end. -/
inductive Continues : Job → Job → Prop
  | same (job : Job) : Continues job job
  | tries (n m : Nat) : Continues (.start n) (.start m)
  | told (told : Bool) : Continues (.background told) (.background true)

theorem Continues.trans {job' job'' : Job} (h : Continues job job') (h' : Continues job' job'') :
    Continues job job'' := by
  cases h with
  | same => exact h'
  | tries n _ =>
    cases h' with
    | same => exact .tries n _
    | tries _ m => exact .tries n m
  | told told =>
    cases h' with
    | same => exact .told told
    | told _ => exact .told told

/-- The task is still at what it was begun for. -/
def KeepsJob (d : Client) (t : TaskId) (job : Job) : Prop :=
  ∃ job' standing, d.task? t = some ⟨job', standing⟩ ∧ Continues job job'

theorem keepsJob_stand {job' : Job} {standing : Standing} (kept : Continues job job') :
    (d.stand t job' standing).KeepsJob t job :=
  ⟨job', standing, (d.task?_stand ..).trans (if_pos rfl), kept⟩

theorem Ending.keepsJob {result : Except Fault Payload} (h : Ending c t job result d)
    (live : ∀ clear, job ≠ .stop clear) : d.KeepsJob t job := by
  cases h with
  | kept clear result => exact absurd rfl (live clear)
  | rests _ fatal next kinds =>
    rcases kinds with ⟨rfl, rfl⟩ | ⟨n, _, rfl, rfl, _⟩
    · exact keepsJob_stand (.same _)
    · exact keepsJob_stand (.tries n _)
  | givesUp n fault fatal _ => exact keepsJob_stand (.tries n _)
  | _ => exact keepsJob_stand (.same _)

theorem Entry.keepsJob (h : Entry c t job d) : d.KeepsJob t job := by
  cases h with
  | stops clear directory estimates _ _ =>
    have ended : (c.release.finish t (.stop clear) (.ok .nothing)).KeepsJob t (.stop clear) :=
      keepsJob_stand (.same _)
    exact ended
  | refused live _ ends => exact ends.keepsJob live
  | begins _ _ => exact keepsJob_stand (.same _)

theorem Queueing.keepsJob (h : Queueing c t job d) : d.KeepsJob t job := by
  cases h with
  | waits u _ => exact keepsJob_stand (.same _)
  | turns _ entry => exact entry.keepsJob

theorem Answering.keepsJob {outcome : Except Fault (MetaReply q.Value)}
    (h : Answering c t q job w outcome d) (suits : Suits job w) : d.KeepsJob t job := by
  cases h with
  | fails _ _ ending => exact ending.keepsJob suits.worker
  | ends _ _ _ _ ending => exact ending.keepsJob suits.worker
  | _ => exact keepsJob_stand (.same _)

theorem Resuming.keepsJob (h : Resuming c t d) {standing : Standing}
    (task : c.task? t = some ⟨job, standing⟩) : d.KeepsJob t job := by
  cases h with
  | enters here _ entry =>
    cases here.symm.trans task
    exact entry.keepsJob
  | ends here =>
    cases here.symm.trans task
    exact keepsJob_stand (.same _)
  | rested here queueing =>
    cases here.symm.trans task
    exact queueing.keepsJob
  | joined here _ queueing =>
    cases here.symm.trans task
    exact queueing.keepsJob

theorem step_keepsJob (regular : Regular c) (e : Event) {standing : Standing}
    (task : c.task? t = some ⟨job, standing⟩) : (c.step e).KeepsJob t job := by
  have dials : ∀ {d : Client} {q}, Dialling c t q d → d.KeepsJob t job := by
    intro d q dialling
    cases dialling with
    | made here _ _ =>
      cases here.symm.trans task
      exact keepsJob_stand (.same _)
  by_cases eq : t = c.subject e
  · subst eq
    have move := c.step_move e
    generalize c.step e = d at move
    cases move with
    | nothing => exact ⟨job, standing, task, .same _⟩
    | begins _ => cases (regular.fresh _ (Nat.le_refl _)).symm.trans task
    | calls dialling => exact dials dialling
    | wakes dialling => exact dials dialling
    | resumes resuming => exact resuming.keepsJob task
    | answers calling answering =>
      cases calling.task.symm.trans task
      exact answering.keepsJob (regular.apt _ _ _ task)
  · rcases step_stays regular.toOrderly e task eq with same | ⟨told, rfl, after⟩
    · exact ⟨job, standing, same, .same _⟩
    · exact ⟨_, standing, after, .told told⟩

theorem run_keepsJob (regular : Regular c) (events : List Event) {standing : Standing}
    (task : c.task? t = some ⟨job, standing⟩) : (c.run events).KeepsJob t job := by
  induction events generalizing c job standing with
  | nil => exact ⟨job, standing, task, .same _⟩
  | cons e events ih =>
    obtain ⟨job', standing', task', kept⟩ := step_keepsJob regular e task
    obtain ⟨job'', standing'', task'', kept'⟩ := ih (step_regular regular e) task'
    exact ⟨job'', standing'', task'', kept.trans kept'⟩

end Client

end ClusterClient
