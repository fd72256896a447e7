import ClusterClient.Proofs.Finality
import ClusterClient.Proofs.Freshness.Loading
/-!
A load that is asked for does all of its work in the step that ends it. As long as it is under
way, and when it fails, it leaves alone whatever the client has cached, believes about
partitions and has told.
-/
namespace ClusterClient

def Job.loads : Job → Bool
  | .loadData | .loadConfig => true
  | _ => false

namespace Client

variable {c d : Client} {t : TaskId} {job : Job} {w : Work} {q : Query} {progress : Progress}

/-- The caches, the leaders of partitions, the cluster id and what was told are the same. -/
structure Spared (c d : Client) : Prop extends Quiet c d where
  leaders : d.estimates.leaders = c.estimates.leaders
  clusterId : d.clusterId = c.clusterId

theorem Spared.refl (c : Client) : Spared c c := ⟨⟨rfl, rfl, rfl⟩, rfl, rfl⟩

theorem Spared.trans {b : Client} (h : Spared b c) (h' : Spared c d) : Spared b d where
  directory := h'.directory.trans h.directory
  notices := h'.notices.trans h.notices
  watermark := h'.watermark.trans h.watermark
  leaders := h'.leaders.trans h.leaders
  clusterId := h'.clusterId.trans h.clusterId

/-- A load at work makes the calls that it is made of, all of them to the meta service. -/
structure Reading (job : Job) (w : Work) : Prop where
  toMeta : w.ToMeta
  data : job = .loadData →
    w.stage = .listing ∨ ∃ id rest built hosts, w.stage = .space id rest built hosts
  config : job = .loadConfig → ∃ scope, w.stage = .configs scope

def Loading (c : Client) (t : TaskId) (job : Job) : Prop :=
  ∀ w, c.task? t = some ⟨job, .working w⟩ → Reading job w

/-- What a step may have made of a load: it has done nothing yet, or it has succeeded. -/
def Loads (c d : Client) (t : TaskId) (job : Job) : Prop :=
  Spared c d ∧ d.Loading t job ∨ ∃ payload, d.task? t = some ⟨job, .done (.ok payload)⟩

/-- The step can as well be one of a client that differs in less than that. -/
theorem Loads.before {b : Client} (h : Loads c d t job) (spared : Spared b c) :
    Loads b d t job :=
  h.imp_left fun h => ⟨spared.trans h.1, h.2⟩

theorem toMeta_begin (remote : Option Int64) (stage : Stage) :
    (Work.begin remote stage).ToMeta := by
  intro q
  trivial

theorem Reading.set (h : Reading job w) {slot : Slot q.Value} (routed : slot.ToMeta) :
    Reading job { w with slots := w.slots.set q slot } := by
  refine ⟨fun q' => ?_, h.data, h.config⟩
  change (w.slots.set q slot q').ToMeta
  by_cases eq : q' = q
  · subst eq
    rwa [slots_set_self]
  · rw [slots_set_of_ne _ _ eq]
    exact h.toMeta q'

theorem loading_stand {standing : Standing} (reading : ∀ w, standing = .working w → Reading job w) :
    (d.stand t job standing).Loading t job := by
  intro w task
  rw [task?_stand, if_pos rfl] at task
  cases task
  exact reading w rfl

/-- A load ends with what came of it. -/
theorem Ending.of_load {result : Except Fault Payload} (h : Ending c t job result d)
    (load : job.loads = true) : ∃ fatal, d = { c.release with fatal }.finish t job result := by
  cases h with
  | kept _ _ => cases load
  | answered idle _ => cases job <;> cases idle <;> cases load
  | finishes _ _ outcome fatal _ same =>
    have kind : job = .loadData ∨ job = .loadConfig := by
      cases job <;> cases load
      · exact .inl rfl
      · exact .inr rfl
    exact ⟨fatal, by rw [same kind]⟩
  | rests _ _ _ kinds => rcases kinds with ⟨rfl, _⟩ | ⟨_, _, rfl, _⟩ <;> cases load
  | ready _ _ _ => cases load
  | givesUp _ _ _ _ => cases load

theorem Ending.loads {result : Except Fault Payload} (h : Ending c t job result d)
    (load : job.loads = true) : Loads c d t job := by
  obtain ⟨fatal, rfl⟩ := h.of_load load
  exact .inl ⟨⟨⟨rfl, rfl, rfl⟩, rfl, rfl⟩, loading_stand (by simp)⟩

theorem reading_begin (c : Client) (job : Job) : Reading job (.begin none (c.firstStage job)) := by
  refine ⟨toMeta_begin _ _, ?_, ?_⟩
  · rintro rfl
    exact .inl rfl
  · rintro rfl
    exact ⟨_, rfl⟩

theorem Entry.loads (h : Entry c t job d) (load : job.loads = true) : Loads c d t job := by
  cases h with
  | stops _ _ _ _ _ => cases load
  | refused _ _ ends => exact ends.loads load
  | begins _ _ =>
    refine .inl ⟨⟨⟨rfl, rfl, rfl⟩, rfl, rfl⟩, loading_stand ?_⟩
    rintro w ⟨⟩
    exact reading_begin c job

theorem Queueing.loads (h : Queueing c t job d) (load : job.loads = true) : Loads c d t job := by
  cases h with
  | waits u _ => exact .inl ⟨⟨⟨rfl, rfl, rfl⟩, rfl, rfl⟩, loading_stand (by simp)⟩
  | turns _ entry => exact (entry.loads load).before ⟨⟨rfl, rfl, rfl⟩, rfl, rfl⟩

theorem Built.loads {hosts : List HostItem} {built : List Space} {ids : List SpaceId}
    (h : Built c .loadData w hosts built ids d progress) :
    (∀ w', progress = .more w' → Spared c d ∧ Reading .loadData w') ∧
      ∀ result, progress = .ended result → ∃ payload, result = .ok payload := by
  cases h with
  | next id rest =>
    refine ⟨?_, by simp⟩
    rintro w' ⟨⟩
    exact ⟨.refl c, toMeta_begin _ _, fun _ => .inr ⟨id, rest, built, hosts, rfl⟩, nofun⟩
  | data _ =>
    refine ⟨by simp, ?_⟩
    rintro result ⟨⟩
    exact ⟨_, rfl⟩
  | bare other _ => exact absurd rfl other
  | configs other _ => exact absurd rfl other

/-- A load that goes on has done nothing yet, and one that has all its answers succeeds. -/
theorem Advancing.loads (h : Advancing c job w d progress) (load : job.loads = true)
    (reading : Reading job w) :
    (∀ w', progress = .more w' → Spared c d ∧ Reading job w') ∧
      ∀ result, progress = .ended result → ∃ payload, result = .ok payload := by
  have kind : (job = .loadData ∧ (w.stage = .listing ∨
      ∃ id rest built hosts, w.stage = .space id rest built hosts)) ∨
      ∃ scope, w.stage = .configs scope := by
    cases job <;> cases load
    · exact .inl ⟨rfl, reading.data rfl⟩
    · exact .inr (reading.config rfl)
  -- the other stages are those of other jobs
  have apart : ∀ {stage}, w.stage = stage → (∀ scope, stage ≠ .configs scope) →
      stage ≠ .listing → (∀ id rest built hosts, stage ≠ .space id rest built hosts) → False := by
    rintro stage rfl config listing space
    rcases kind with ⟨_, eq | ⟨id, rest, built, hosts, eq⟩⟩ | ⟨scope, eq⟩
    · exact listing eq
    · exact space id rest built hosts eq
    · exact config scope eq
  have data : ∀ {stage}, w.stage = stage → (∀ scope, stage ≠ .configs scope) →
      job = .loadData := by
    rintro stage rfl config
    rcases kind with ⟨eq, _⟩ | ⟨scope, eq⟩
    · exact eq
    · exact absurd eq (config scope)
  cases h with
  | waits =>
    refine ⟨?_, by simp⟩
    rintro w' ⟨⟩
    exact ⟨.refl c, reading⟩
  | beats r stage _ _ _ _ _ => exact (apart stage (by simp) (by simp) (by simp)).elim
  | lists stage spaces hosts heard built =>
    obtain rfl := data stage (by simp)
    exact built.loads
  | builds _ _ _ _ stage _ _ _ _ _ _ _ built =>
    obtain rfl := data stage (by simp)
    exact built.loads
  | configures _ _ items _ =>
    refine ⟨by simp, ?_⟩
    rintro result ⟨⟩
    exact ⟨_, rfl⟩
  | asked q request stage result => exact (apart stage (by simp) (by simp) (by simp)).elim

theorem Dialling.loads (h : Dialling c t q d) {standing : Standing}
    (task : c.task? t = some ⟨job, standing⟩) (loading : c.Loading t job) : Loads c d t job := by
  cases h with
  | made here estimates s kept _ =>
    cases here.symm.trans task
    have reading := loading _ task
    obtain ⟨leaders, routed⟩ := kept reading.toMeta
    refine .inl ⟨⟨⟨rfl, rfl, rfl⟩, leaders, rfl⟩, loading_stand ?_⟩
    rintro w' ⟨⟩
    exact reading.set routed

theorem Answering.loads {outcome : Except Fault (MetaReply q.Value)}
    (h : Answering c t q job w outcome d) (load : job.loads = true) (reading : Reading job w) :
    Loads c d t job := by
  have heard : ∀ {v : q.Value}, Reading job { w with slots := w.slots.set q (.done v) } :=
    reading.set trivial
  cases h with
  | again estimates s kept =>
    obtain ⟨leaders, routed⟩ := kept reading.toMeta
    refine .inl ⟨⟨⟨rfl, rfl, rfl⟩, leaders, rfl⟩, loading_stand ?_⟩
    rintro w' ⟨⟩
    exact reading.set routed
  | pauses estimates s kept =>
    obtain ⟨leaders, routed⟩ := kept reading.toMeta
    refine .inl ⟨⟨⟨rfl, rfl, rfl⟩, leaders, rfl⟩, loading_stand ?_⟩
    rintro w' ⟨⟩
    exact reading.set routed
  | fails estimates fault ending kept =>
    exact (ending.loads load).before ⟨⟨rfl, rfl, rfl⟩, kept reading.toMeta, rfl⟩
  | advances estimates leader v advancing kept =>
    obtain ⟨spared, reading'⟩ := (advancing.loads load heard).1 _ rfl
    have before : Spared c { c with estimates } := ⟨⟨rfl, rfl, rfl⟩, kept reading.toMeta, rfl⟩
    have after := before.trans spared
    refine .inl ⟨⟨⟨after.directory, after.notices, after.watermark⟩, after.leaders,
      after.clusterId⟩, loading_stand ?_⟩
    rintro w'' ⟨⟩
    exact reading'
  | ends estimates leader v advancing ending kept =>
    obtain ⟨payload, rfl⟩ := (advancing.loads load heard).2 _ rfl
    obtain ⟨fatal, rfl⟩ := ending.of_load load
    exact .inr ⟨payload, (Client.task?_finish ..).trans (if_pos rfl)⟩

theorem Resuming.loads (h : Resuming c t d) (load : job.loads = true) {standing : Standing}
    (task : c.task? t = some ⟨job, standing⟩) : Loads c d t job := by
  cases h with
  | enters here _ entry =>
    cases here.symm.trans task
    exact entry.loads load
  | ends here =>
    cases here.symm.trans task
    cases load
  | rested here queueing =>
    cases here.symm.trans task
    exact queueing.loads load
  | joined here _ queueing =>
    cases here.symm.trans task
    exact queueing.loads load

theorem step_loads (regular : Regular c) (load : job.loads = true) (e : Event)
    {standing : Standing} (task : c.task? (c.subject e) = some ⟨job, standing⟩)
    (loading : c.Loading (c.subject e) job) : Loads c (c.step e) (c.subject e) job := by
  have move := c.step_move e
  generalize c.step e = d at move
  cases move with
  | nothing => exact .inl ⟨.refl c, loading⟩
  | begins _ => cases (regular.fresh _ (Nat.le_refl _)).symm.trans task
  | calls dialling => exact dialling.loads task loading
  | wakes dialling => exact dialling.loads task loading
  | resumes resuming => exact resuming.loads load task
  | answers calling answering =>
    cases calling.task.symm.trans task
    exact answering.loads load (loading _ task)

/-- Other tasks cannot do anything to a load. -/
theorem Beside.loading (h : Beside c d t) (load : job.loads = true) (loading : c.Loading t job) :
    d.Loading t job := by
  intro w after
  cases h with
  | same same => exact loading w (same.symm.trans after)
  | spawned _ here => cases here.symm.trans after
  | told _ _ _ here =>
    cases here.symm.trans after
    cases load

theorem KeepsJob.of_load (h : c.KeepsJob t job) (load : job.loads = true) :
    ∃ standing, c.task? t = some ⟨job, standing⟩ := by
  obtain ⟨job', standing, task, kept⟩ := h
  cases kept with
  | same => exact ⟨standing, task⟩
  | tries => cases load
  | told => cases load

/-- The task came to nothing. -/
def Failed (c : Client) (t : TaskId) : Prop :=
  ∃ job fault, c.task? t = some ⟨job, .done (.error fault)⟩

theorem run_load_done (regular : Regular c) (load : job.loads = true) {payload : Payload}
    (done : c.task? t = some ⟨job, .done (.ok payload)⟩) (events : List Event) :
    ¬ (c.run events).Failed t := by
  rintro ⟨_, fault, ended⟩
  have front : ∀ told, job ≠ .background told := by
    rintro told rfl
    cases load
  cases (run_done regular.toOrderly events front done).symm.trans ended

/-- The steps of a task in a run have done nothing that others see. -/
def SparedBy (c : Client) (t : TaskId) (events : List Event) : Prop :=
  ∀ before e after, events = before ++ e :: after → (c.run before).subject e = t →
    Spared (c.run before) ((c.run before).step e)

theorem sparedBy_cons {e : Event} {events : List Event}
    (first : c.subject e = t → Spared c (c.step e)) (rest : SparedBy (c.step e) t events) :
    SparedBy c t (e :: events) := by
  intro before e' after split here
  cases before with
  | nil =>
    cases split
    exact first here
  | cons _ before =>
    cases split
    exact rest before e' after rfl here

theorem run_failed_load (regular : Regular c) (load : job.loads = true) {standing : Standing}
    (task : c.task? t = some ⟨job, standing⟩) (loading : c.Loading t job) (events : List Event)
    (failed : (c.run events).Failed t) : SparedBy c t events := by
  induction events generalizing c standing with
  | nil =>
    intro before e after split
    simp at split
  | cons e events ih =>
    have regular' := step_regular regular e
    obtain ⟨standing', task'⟩ := (step_keepsJob regular e task).of_load load
    by_cases own : t = c.subject e
    · subst own
      rcases step_loads regular load e task loading with ⟨spared, loading'⟩ | ⟨payload, done⟩
      · exact sparedBy_cons (fun _ => spared) (ih regular' task' loading' failed)
      · exact absurd failed (run_load_done regular' load done events)
    · exact sparedBy_cons (fun here => absurd here.symm own)
        (ih regular' task' ((c.step_beside e own).loading load loading) failed)

/-- A load that was at work all along is still at reading what it was to read. -/
theorem run_loading (regular : Regular c) (load : job.loads = true) {standing : Standing}
    (task : c.task? t = some ⟨job, standing⟩) (loading : c.Loading t job) (events : List Event)
    (goes : ∀ seen, seen <+: events → (c.run seen).Busy t) : (c.run events).Loading t job := by
  induction events generalizing c standing with
  | nil => exact loading
  | cons e events ih =>
    obtain ⟨standing', task'⟩ := (step_keepsJob regular e task).of_load load
    have goes' : ∀ seen, seen <+: events → ((c.step e).run seen).Busy t := fun seen prefixed =>
      goes (e :: seen) (List.cons_prefix_cons.mpr ⟨rfl, prefixed⟩)
    refine ih (step_regular regular e) task' ?_ goes'
    by_cases own : t = c.subject e
    · subst own
      rcases step_loads regular load e task loading with ⟨_, loading'⟩ | ⟨payload, done⟩
      · exact loading'
      · obtain ⟨_, _, at_work, _⟩ := goes' [] List.nil_prefix
        cases done.symm.trans at_work
    · exact (c.step_beside e own).loading load loading

/-- A load that fails has done nothing that others see in any step, from the one that begins it
to the one that ends it. -/
theorem failed_load_spares (regular : Regular c) {op : Operation}
    (load : op = .loadData ∨ op = .loadConfig) (events : List Event)
    (failed : (c.run (.invoke op :: events)).Failed c.nextTask) :
    SparedBy c c.nextTask (.invoke op :: events) := by
  have begun : ∃ job standing, job.loads = true ∧ Loads c (c.step (.invoke op)) c.nextTask job ∧
      (c.step (.invoke op)).task? c.nextTask = some ⟨job, standing⟩ := by
    have queued : ∀ {job}, job.loads = true → c.invoke op = c.numbered.queue c.nextTask job →
        ∃ job standing, job.loads = true ∧ Loads c (c.step (.invoke op)) c.nextTask job ∧
          (c.step (.invoke op)).task? c.nextTask = some ⟨job, standing⟩ := by
      intro job load eq
      have queueing := c.numbered.queue_queueing c.nextTask job
      rw [← eq] at queueing
      obtain ⟨standing, task⟩ := queueing.keepsJob.of_load load
      exact ⟨job, standing, load, (queueing.loads load).before ⟨⟨rfl, rfl, rfl⟩, rfl, rfl⟩, task⟩
    rcases load with rfl | rfl
    · exact queued rfl rfl
    · exact queued rfl rfl
  obtain ⟨job, standing, load, loads, task⟩ := begun
  have regular' := step_regular regular (.invoke op)
  rcases loads with ⟨spared, loading⟩ | ⟨payload, done⟩
  · exact sparedBy_cons (fun _ => spared) (run_failed_load regular' load task loading events failed)
  · exact absurd failed (run_load_done regular' load done events)

end Client

end ClusterClient
