import ClusterClient.Proofs.Freshness.Loading
/-!
No change of the metadata is lost: a client that runs and whose watermark is the time of
the last change has cached just what the meta service has.
-/
namespace ClusterClient

namespace Client

variable {c d : Client} {t : TaskId} {job : Job} {server : Store} {coming : List Coming}

/-- What holds of a task, by what it is at. -/
def Proper (server : Store) (coming : List Coming) (c : Client) (t : TaskId) (job : Job) :
    Standing → Prop
  | .working w => Fits job w ∧ (job.cycles = true → ∃ low, Grounded server coming c t w low)
  | .done _ => True
  | _ => job.cycles = true

/-- What holds of the task that a step was about, and of the caches after it. -/
structure Kept (server : Store) (coming : List Coming) (d : Client) (t : TaskId) : Prop where
  task : ∀ job standing, d.task? t = some ⟨job, standing⟩ → Proper server coming d t job standing
  synced : d.phase = .running → Synced server d

theorem kept_stand {standing : Standing}
    (proper : Proper server coming (d.stand t job standing) t job standing)
    (synced : d.phase = .running → Synced server d) :
    Kept server coming (d.stand t job standing) t where
  task job' standing' task := by
    rw [task?_stand, if_pos rfl] at task
    cases task
    exact proper
  synced running := (synced running).quiet ⟨rfl, rfl, rfl⟩ rfl

theorem kept_work {w : Work} (fits : Fits job w)
    (grounded : job.cycles = true → ∃ low, Grounded server coming d t w low)
    (synced : d.phase = .running → Synced server d) :
    Kept server coming (d.stand t job (.working w)) t := by
  refine kept_stand ⟨fits, fun cycles => ?_⟩ synced
  obtain ⟨low, grounded⟩ := grounded cycles
  exact ⟨low, grounded.steady ⟨⟨rfl, rfl, rfl⟩, id⟩ rfl⟩

theorem synced_after (h : Steady c d ∨ Cleared c d t) (orderly : Orderly d)
    (options : d.options = c.options) (synced : c.phase = .running → Synced server c)
    (running : d.phase = .running) : Synced server d := by
  rcases h with steady | cleared
  · exact (synced (steady.running running)).quiet steady.toQuiet options
  · exact absurd running (orderly.dead (orderly.warned _ _ _ cleared.ended))

theorem firstStage_cases (c : Client) (job : Job) : (∃ r, c.firstStage job = .beat r) ∨
    c.firstStage job = .listing ∨
      c.firstStage job = .configs c.options.role.configModule := by
  cases job with
  | start n | refresh | background told =>
    simp only [firstStage]
    split
    · exact .inr (.inl rfl)
    · exact .inl ⟨_, rfl⟩
  | heartbeat => exact .inl ⟨_, rfl⟩
  | loadConfig => exact .inr (.inr rfl)
  | _ => exact .inr (.inl rfl)

theorem firstStage_fits (reads : c.options.role ≠ .tool) (cycles : job.cycles = true)
    (live : ∀ clear, job ≠ .stop clear) : Fits job (.begin none (c.firstStage job)) := by
  refine fits_begin live cycles ?_ ?_
  · intro q r eq
    rcases c.firstStage_cases job with ⟨_, stage⟩ | stage | stage <;> rw [stage] at eq <;> cases eq
  · rintro n rfl
    exact .inl ⟨c.heartbeatRequest, if_neg reads⟩

/-- A cycle that begins takes the watermark for the time of all that is cached. -/
theorem firstStage_grounded (synced : c.phase = .running → Synced server c) (job : Job) :
    ∃ low, Grounded server coming c t (.begin none (c.firstStage job)) low := by
  have no_space : ∀ id rest built hosts, c.firstStage job ≠ .space id rest built hosts := by
    intro id rest built hosts eq
    rcases c.firstStage_cases job with ⟨_, stage⟩ | stage | stage <;> rw [stage] at eq <;> cases eq
  have own_scope : ∀ scope, c.firstStage job = .configs scope →
      scope = c.options.role.configModule := by
    intro scope eq
    rcases c.firstStage_cases job with ⟨_, stage⟩ | stage | stage <;> rw [stage] at eq <;> cases eq
    rfl
  by_cases running : c.phase = .running
  · have synced := synced running
    refine ⟨c.watermark.toInt, grounded_begin synced.watermark (by simp) (fun _ => Int.le_refl _)
      (fun _ _ _ _ eq => absurd eq (no_space _ _ _ _)) fun scope eq => ⟨own_scope scope eq, ?_⟩⟩
    intro still
    rw [synced.directory still]
    rfl
  · -- nothing is known to be in force before a client runs, so the time is one that is past
    exact ⟨server.time.toInt - 1, grounded_begin (by omega) (by simp)
      (fun eq => absurd eq running) (fun _ _ _ _ eq => absurd eq (no_space _ _ _ _))
      fun scope eq => ⟨own_scope scope eq, fun still => by omega⟩⟩

theorem Ending.keeps {result : Except Fault Payload} (h : Ending c t job result d)
    (live : ∀ clear, job ≠ .stop clear) (synced : c.phase = .running → Synced server c)
    (started : ∀ n payload, job = .start n → result = .ok payload → Synced server c) :
    Kept server coming d t := by
  refine ⟨?_, fun running => ?_⟩
  · have proper : ∀ {e : Client} {job' standing'}, (∀ w, standing' ≠ .working w) →
        ((∀ r, standing' ≠ .done r) → job'.cycles = true) → ∀ job standing,
        (e.stand t job' standing').task? t = some ⟨job, standing⟩ →
          Proper server coming (e.stand t job' standing') t job standing := by
      intro e job' standing' idle line job standing task
      rw [task?_stand, if_pos rfl] at task
      cases task
      cases standing' with
      | working w => exact absurd rfl (idle w)
      | done r => trivial
      | _ => exact line (by simp)
    cases h with
    | kept clear result => exact absurd rfl (live clear)
    | rests _ fatal next kinds =>
      refine proper (by simp) fun _ => ?_
      rcases kinds with ⟨_, rfl⟩ | ⟨_, _, _, rfl, _⟩ <;> rfl
    | _ => exact proper (by simp) fun open_ => absurd rfl (open_ _)
  · rcases h.running running with running | ⟨n, payload, eq, ok⟩
    · exact (synced running).quiet h.quiet h.later.options
    · exact (started n payload eq ok).quiet h.quiet h.later.options

theorem Entry.keeps (h : Entry c t job d) (cycles : job.cycles = true)
    (held : c.holder = some t) (orderly : Orderly d) (reads : c.options.role ≠ .tool)
    (synced : c.phase = .running → Synced server c) : Kept server coming d t := by
  have after := synced_after (h.steady held) orderly h.later.options synced
  cases h with
  | stops clear directory estimates _ _ =>
    refine ⟨fun job standing task => ?_, after⟩
    have ended := c.release.task?_finish t (.stop clear) (.ok .nothing) t
    cases (ended.trans (if_pos rfl)).symm.trans task
    trivial
  | refused live _ ends => exact ends.keeps live synced fun _ _ _ eq => by cases eq
  | begins live _ =>
    exact kept_work (firstStage_fits reads cycles live)
      (fun _ => firstStage_grounded synced job) synced

theorem Queueing.keeps (h : Queueing c t job d) (cycles : job.cycles = true) (orderly : Orderly d)
    (reads : c.options.role ≠ .tool) (synced : c.phase = .running → Synced server c) :
    Kept server coming d t := by
  cases h with
  | waits u _ =>
    exact kept_stand cycles fun running => (synced running).quiet ⟨rfl, rfl, rfl⟩ rfl
  | turns _ entry =>
    exact entry.keeps cycles rfl orderly reads fun running =>
      (synced running).quiet ⟨rfl, rfl, rfl⟩ rfl

theorem Resuming.keeps (h : Resuming c t d) (orderly : Orderly d)
    (reads : c.options.role ≠ .tool) (synced : c.phase = .running → Synced server c)
    (proper : ∀ job standing, c.task? t = some ⟨job, standing⟩ →
      Proper server coming c t job standing) {left : List Coming} : Kept server left d t := by
  cases h with
  | enters task turn entry => exact entry.keeps (proper _ _ task) turn orderly reads synced
  | ends _ => exact kept_stand trivial synced
  | rested task queueing => exact queueing.keeps (proper _ _ task) orderly reads synced
  | joined task _ queueing => exact queueing.keeps (proper _ _ task) orderly reads synced

theorem Beginning.keeps {op : Operation} (h : Beginning c op d) (orderly : Orderly d)
    (reads : c.options.role ≠ .tool) (synced : c.phase = .running → Synced server c) :
    Kept server coming d c.nextTask := by
  have numbered : c.numbered.phase = .running → Synced server c.numbered := fun running =>
    (synced running).quiet ⟨rfl, rfl, rfl⟩ rfl
  cases h with
  | start _ h => exact h.keeps rfl orderly reads fun eq => by cases eq
  | declined result _ _ _ => exact kept_stand trivial numbered
  | joins clear b _ =>
    obtain ⟨tasks, eq⟩ := c.halting.tellBackground_tasks b
    rw [eq]
    exact kept_stand rfl fun running => by cases running
  | stop clear _ h => exact h.keeps rfl orderly reads fun eq => by cases eq
  | ignored => exact kept_stand trivial numbered
  | refresh h => exact h.keeps rfl orderly reads numbered
  | loadData h => exact h.keeps rfl orderly reads numbered
  | loadConfig h => exact h.keeps rfl orderly reads numbered
  | heartbeat =>
    exact kept_work ⟨⟨by simp, fun _ => ⟨_, rfl⟩, by simp⟩, (fun cycles => by cases cycles),
      by simp⟩ (fun cycles => by cases cycles) numbered
  | ask q request =>
    exact kept_work ⟨⟨by simp, by simp, fun _ => ⟨_, _, rfl⟩⟩, (fun cycles => by cases cycles),
      by simp⟩ (fun cycles => by cases cycles) numbered

variable {q : Query} {w : Work} {left : List Coming}

/-- A call is made, and its answer is not under way yet. -/
theorem kept_asks (proper : Proper server coming c t job (.working w))
    (synced : c.phase = .running → Synced server c) (fewer : ∀ r ∈ left, r ∈ coming)
    (none : ∀ v, ⟨t, q, v⟩ ∉ left) (estimates : Estimates) {slot : Slot q.Value}
    (open_ : ∀ v, slot ≠ .done v) :
    Kept server left ({ c with estimates }.setSlot t job w q slot) t := by
  obtain ⟨fits, grounded⟩ := proper
  refine kept_work (fits.slots _) (fun cycles => ?_) fun running =>
    (synced running).quiet ⟨rfl, rfl, rfl⟩ rfl
  obtain ⟨low, grounded⟩ := grounded cycles
  exact ⟨low, ((grounded.fewer fewer).asks open_ none).steady ⟨⟨rfl, rfl, rfl⟩, id⟩ rfl⟩

theorem Dialling.keeps (h : Dialling c t q d)
    (proper : ∀ job standing, c.task? t = some ⟨job, standing⟩ →
      Proper server coming c t job standing)
    (synced : c.phase = .running → Synced server c) (fewer : ∀ r ∈ left, r ∈ coming)
    (none : ∀ v, ⟨t, q, v⟩ ∉ left) : Kept server left d t := by
  cases h with
  | made task estimates s => exact kept_asks (proper _ _ task) synced fewer none estimates (by simp)

/-- A cycle that a step is not about goes on with caches that stay what they are. -/
theorem Proper.beside (h : Proper server coming c t job standing) (fewer : ∀ r ∈ left, r ∈ coming)
    (options : d.options = c.options)
    (steady : ∀ w, standing = .working w → job.cycles = true → Steady c d) :
    Proper server left d t job standing := by
  cases standing with
  | working w =>
    refine ⟨h.1, fun cycles => ?_⟩
    obtain ⟨low, grounded⟩ := h.2 cycles
    exact ⟨low, (grounded.fewer fewer).steady (steady w rfl cycles) options⟩
  | done r => trivial
  | _ => exact h

theorem not_running_of_start {n : Nat} (orderly : Orderly c)
    (task : c.task? t = some ⟨.start n, .working w⟩) : c.phase ≠ .running := by
  intro running
  have phase := orderly.probing t ⟨n, .working w, task, by simp⟩
  simp [running] at phase

/-- A task goes on with what its last answer told, or is at its end. -/
theorem Advancing.keeps {estimates : Estimates} {v : q.Value} {progress : Progress}
    (h : Advancing { c with estimates } job { w with slots := w.slots.set q (.done v) } d progress)
    (proper : Proper server coming c t job (.working w)) (fewer : ∀ r ∈ left, r ∈ coming)
    (gave : ∀ low, Grounded server coming c t w low → server.Gave low (w.stage.request q) q v)
    (probing : ∀ n, job = .start n → c.phase ≠ .running)
    (synced : c.phase = .running → Synced server c) (loads : c.options.skipConfig = false) :
    (d.phase = .running → Synced server d) ∧
    (∀ w', progress = .more w' → Proper server left d t job (.working w')) ∧
    ∀ n payload, job = .start n → progress = .ended (.ok payload) → Synced server d := by
  have still : ({ c with estimates } : Client).phase = .running →
      Synced server { c with estimates } := fun running =>
    (synced running).quiet ⟨rfl, rfl, rfl⟩ rfl
  have fits := proper.1.slots (w.slots.set q (.done v))
  cases cycles : job.cycles with
  | true =>
    obtain ⟨low, grounded⟩ := proper.2 cycles
    have hears := ((grounded.fewer fewer).hears (gave low grounded)).steady
      (d := { c with estimates }) ⟨⟨rfl, rfl, rfl⟩, id⟩ rfl
    have after := h.abreast fits cycles hears probing still loads
    refine ⟨after.synced, fun w' more => ?_, after.started⟩
    obtain ⟨fits, grounded⟩ := after.more w' more
    exact ⟨fits, fun _ => grounded⟩
  | false =>
    obtain ⟨steady, same⟩ := h.idle fits.toSuits cycles
    refine ⟨fun running => ?_, fun w' more => ⟨same w' more ▸ fits, fun cyclic => ?_⟩, ?_⟩
    · exact (still (steady.running running)).quiet steady.toQuiet h.alike.options
    · rw [cycles] at cyclic
      cases cyclic
    · rintro n _ rfl
      cases cycles

theorem Answering.keeps {s : Sending} {outcome : Except Fault (MetaReply q.Value)}
    (h : Answering c t q job w outcome d) (calling : c.Calling t q job w s) (orderly : Orderly c)
    (loads : c.options.skipConfig = false) (proper : Proper server coming c t job (.working w))
    (synced : c.phase = .running → Synced server c) (fewer : ∀ r ∈ left, r ∈ coming)
    (none : ∀ v, ⟨t, q, v⟩ ∉ left)
    (heard : ∀ leader v, outcome = .ok ⟨.succeeded, leader, v⟩ → ⟨t, q, v⟩ ∈ coming) :
    Kept server left d t := by
  have probing : ∀ n, job = .start n → c.phase ≠ .running := fun n eq =>
    not_running_of_start orderly (eq ▸ calling.task)
  cases h with
  | again estimates s => exact kept_asks proper synced fewer none estimates (by simp)
  | pauses estimates s => exact kept_asks proper synced fewer none estimates (by simp)
  | fails estimates fault ending =>
    exact ending.keeps proper.1.worker (fun running => (synced running).quiet ⟨rfl, rfl, rfl⟩ rfl)
      fun _ _ _ eq => by cases eq
  | advances estimates leader v advancing =>
    obtain ⟨synced, more, _⟩ := advancing.keeps proper fewer
      (fun _ grounded => grounded.awaited q s v calling.slot (heard leader v rfl)) probing synced
      loads
    exact kept_work (more _ rfl).1 (more _ rfl).2 synced
  | ends estimates leader v advancing ending =>
    obtain ⟨synced, _, started⟩ := advancing.keeps proper fewer
      (fun _ grounded => grounded.awaited q s v calling.slot (heard leader v rfl)) probing synced
      loads
    exact ending.keeps proper.1.worker synced fun n payload eq ok =>
      started n payload eq (by rw [ok])

theorem proper_told {told : Bool} {standing : Standing}
    (h : Proper server coming c t (.background told) standing) :
    Proper server coming c t (.background true) standing := by
  cases standing with
  | working w =>
    exact ⟨⟨⟨by simp, by simp, by simp⟩, fun _ => h.1.cycle rfl, by simp⟩, fun _ => h.2 rfl⟩
  | done r => trivial
  | _ => rfl

end Client

namespace World

open Client

variable {options : Options} {w w' : World}

/-- The invariant of a client among changing metadata. -/
structure Current (options : Options) (w : World) : Prop where
  options : w.client.options = options
  orderly : Orderly w.client
  tasks : ∀ t job standing, w.client.task? t = some ⟨job, standing⟩ →
    Proper w.server w.coming w.client t job standing
  synced : w.client.phase = .running → Synced w.server w.client

theorem left_fewer (w : World) (e : Event) : ∀ r ∈ w.left e, r ∈ w.coming := by
  intro r here
  cases e with
  | invoke op => exact here
  | resume t => exact here
  | call t q => exact (List.mem_filter.mp here).1
  | answer t q choice outcome => exact (List.mem_filter.mp here).1
  | wake t q => exact (List.mem_filter.mp here).1

theorem not_mem_filter (coming : List Coming) (t : TaskId) (q : Query) (v : q.Value) :
    ⟨t, q, v⟩ ∉ coming.filter fun r => ¬ (r.task = t ∧ r.query = q) := by
  simp

theorem Current.keeps (h : Current options w) (reads : options.role ≠ .tool)
    (loads : options.skipConfig = false) (e : Event)
    (heard : ∀ t q choice leader v, e = .answer t q choice (.ok ⟨.succeeded, leader, v⟩) →
      ⟨t, q, v⟩ ∈ w.coming) :
    Kept w.server (w.left e) (w.client.step e) (w.client.subject e) := by
  have fewer := w.left_fewer e
  have orderly := step_orderly h.orderly e
  have reads : w.client.options.role ≠ .tool := h.options ▸ reads
  have loads : w.client.options.skipConfig = false := h.options ▸ loads
  have move := w.client.step_move e
  generalize w.client.step e = d at move orderly
  cases move with
  | nothing =>
    refine ⟨fun job standing task => ?_, h.synced⟩
    exact (h.tasks _ _ _ task).beside fewer rfl fun _ _ _ => ⟨⟨rfl, rfl, rfl⟩, id⟩
  | begins beginning => exact beginning.keeps orderly reads h.synced
  | calls dialling =>
    exact dialling.keeps (h.tasks _) h.synced fewer fun v => not_mem_filter _ _ _ v
  | wakes dialling =>
    exact dialling.keeps (h.tasks _) h.synced fewer fun v => not_mem_filter _ _ _ v
  | resumes resuming => exact resuming.keeps orderly reads h.synced (h.tasks _)
  | answers calling answering =>
    exact answering.keeps calling h.orderly loads (h.tasks _ _ _ calling.task) h.synced fewer
      (fun v => not_mem_filter _ _ _ v) fun leader v ok => heard _ _ _ leader v (by rw [ok])

theorem Current.acts (h : Current options w) (reads : options.role ≠ .tool)
    (loads : options.skipConfig = false) (e : Event)
    (heard : ∀ t q choice leader v, e = .answer t q choice (.ok ⟨.succeeded, leader, v⟩) →
      ⟨t, q, v⟩ ∈ w.coming) :
    Current options { w with client := w.client.step e, coming := w.left e } := by
  have kept := h.keeps reads loads e heard
  have later := w.client.step_later e
  have fewer := w.left_fewer e
  have steady : ∀ {u job work}, u ≠ w.client.subject e →
      w.client.task? u = some ⟨job, .working work⟩ → job.cycles = true →
        Steady w.client (w.client.step e) := by
    intro u job work ne task cycles
    have held := h.orderly.locked u job work task cycles
    rcases step_turn h.orderly (fun t job w task => (h.tasks t job _ task).1.toSuits) e with
      steady | free | turn
    · exact steady
    · rw [held] at free
      cases free
    · rw [held] at turn
      exact absurd (Option.some.inj turn) ne
  refine ⟨later.options.trans h.options, step_orderly h.orderly e, ?_, kept.synced⟩
  intro u job standing task
  by_cases eq : u = w.client.subject e
  · subst eq
    exact kept.task job standing task
  · cases w.client.step_beside e eq with
    | same same =>
      have before : w.client.task? u = some ⟨job, standing⟩ := same.symm.trans task
      have proper := h.tasks u job standing before
      exact proper.beside fewer later.options fun work working cycles =>
        steady eq (working ▸ before) cycles
    | spawned _ spawned =>
      cases spawned.symm.trans task
      rfl
    | told told _ before after =>
      cases after.symm.trans task
      refine (proper_told (h.tasks u _ standing before)).beside fewer later.options
        fun work working _ => ?_
      exact steady eq (working ▸ before) rfl

theorem Current.changes (h : Current options w) {store : Store}
    (later : w.server.time < store.time) : Current options { w with server := store } := by
  refine ⟨h.options, h.orderly, fun t job standing task => ?_, fun running =>
    (h.synced running).later later⟩
  have proper := h.tasks t job standing task
  cases standing with
  | working work =>
    refine ⟨proper.1, fun cycles => ?_⟩
    obtain ⟨low, grounded⟩ := proper.2 cycles
    exact ⟨low, grounded.later later⟩
  | done r => trivial
  | _ => exact proper

/-- What a call is served is in force at that time. -/
theorem Current.serves (h : Current options w) {t : TaskId} {q : Query} {request : Request}
    (asked : w.client.asks t q = some request) {v : q.Value}
    (answers : w.server.Answers request q v) :
    Current options { w with coming := ⟨t, q, v⟩ :: w.coming } := by
  refine ⟨h.options, h.orderly, fun u job' standing task => ?_, h.synced⟩
  have proper := h.tasks u job' standing task
  cases standing with
  | working work' =>
    refine ⟨proper.1, fun cycles => ?_⟩
    obtain ⟨low, grounded⟩ := proper.2 cycles
    refine ⟨low, { grounded with awaited := fun q' s' v' slot here => ?_ }⟩
    rcases List.mem_cons.mp here with new | old
    · cases new
      obtain ⟨_, _, _, at_work, _, rfl⟩ := asks_cases asked
      cases at_work.symm.trans task
      exact Store.gave_of_answers grounded.past answers
    · exact grounded.awaited q' s' v' slot old
  | done r => trivial
  | _ => exact proper

namespace Sample

def graph : Options :=
  { metaAddresses := [⟨"m", 9559⟩], localHost := ⟨"a", 1⟩, role := .graph, retryCount := 0 }

def nba : SpaceData := ⟨⟨"nba", 1, 1, .int64, 8⟩, .ofList [(1, [⟨"a", 1⟩])], [], [], [], []⟩

def store : Store :=
  { time := 5
    names := [⟨7, "nba"⟩]
    data := fun _ => some nba
    configs := fun _ => [] }

end Sample

end World

end ClusterClient
