import ClusterClient.Proofs.Client.Beats
import ClusterClient.Proofs.Client.Results
import ClusterClient.Proofs.Probing
import ClusterClient.Proofs.Reloads
/-!
How a client becomes ready: with the end of a probe that has read everything anew. It then has a
background task, and never another one.
-/
namespace ClusterClient

/-- What a task is begun for. -/
def Operation.job : Operation → Job
  | start => .start 0
  | stop clear => .stop clear
  | refresh => .refresh
  | loadData => .loadData
  | loadConfig => .loadConfig
  | heartbeat => .heartbeat
  | ask _ _ => .ask

namespace Client

variable {c₀ c d : Client} {t u : TaskId} {job : Job} {w : Work} {q : Query} {events : List Event}

/-- The task is one that refreshes in the background, or did so. -/
def Serves (c : Client) (u : TaskId) : Prop :=
  ∃ told standing, c.task? u = some ⟨.background told, standing⟩

/-- There is one background task at most, and none before the client is ready. -/
structure Lone (c : Client) : Prop where
  alone : ∀ u v, c.Serves u → c.Serves v → u = v
  ready : ∀ u, c.Serves u → c.phase = .running ∨ c.stopped = true
  held : c.stopped = false → ∀ u, c.background = some u → c.Serves u

theorem Lone.nobody (h : Lone c) (unready : c.phase ≠ .running) (going : c.stopped = false)
    (u : TaskId) : ¬ c.Serves u := by
  intro serves
  rcases h.ready u serves with running | stopped
  · exact unready running
  · cases stopped.symm.trans going

theorem KeepsJob.serves (h : d.KeepsJob t job) (serves : d.Serves t) :
    ∃ told, job = .background told := by
  obtain ⟨job', standing, task, kept⟩ := h
  obtain ⟨told, standing', task'⟩ := serves
  cases task.symm.trans task'
  cases kept with
  | same => exact ⟨told, rfl⟩
  | told told => exact ⟨told, rfl⟩

theorem Serves.step (regular : Regular c) (h : c.Serves u) (e : Event) : (c.step e).Serves u := by
  obtain ⟨told, standing, task⟩ := h
  obtain ⟨job, standing', task', kept⟩ := step_keepsJob regular e task
  cases kept with
  | same => exact ⟨told, standing', task'⟩
  | told _ => exact ⟨true, standing', task'⟩

theorem Beginning.keepsJob {op : Operation} (h : Beginning c op d) :
    d.KeepsJob c.nextTask op.job := by
  cases h with
  | start _ queueing => exact queueing.keepsJob
  | stop clear _ queueing => exact queueing.keepsJob
  | refresh queueing => exact queueing.keepsJob
  | loadData queueing => exact queueing.keepsJob
  | loadConfig queueing => exact queueing.keepsJob
  | _ => exact keepsJob_stand (.same _)

/-- A background task is spawned with the step in which a probing client becomes ready. -/
theorem step_serves (regular : Regular c) (e : Event) (serves : (c.step e).Serves u) :
    c.Serves u ∨ u = c.nextTask ∧ c.phase = .probing ∧ (c.step e).phase = .running := by
  obtain ⟨told, standing, after⟩ := serves
  cases before : c.task? u with
  | some task =>
    obtain ⟨job, standing'⟩ := task
    obtain ⟨told', rfl⟩ := (step_keepsJob regular e before).serves ⟨told, standing, after⟩
    exact .inl ⟨told', standing', before⟩
  | none =>
    rcases known_or_begun c e after before with ⟨op, rfl, rfl⟩ | ⟨_, spawned⟩
    · obtain ⟨_, eq⟩ := (c.invoke_beginning op).keepsJob.serves ⟨told, standing, after⟩
      cases op <;> cases eq
    · exact .inr spawned

theorem Orderly.going (h : Orderly c) (running : c.phase = .running) : c.stopped = false := by
  cases stopped : c.stopped with
  | false => rfl
  | true => exact absurd running (h.dead stopped)

theorem going_of_step {e : Event} (going : (c.step e).stopped = false) : c.stopped = false := by
  cases stopped : c.stopped with
  | false => rfl
  | true => exact ((c.step_later e).stopped stopped).symm.trans going

/-- A client that is ready stays so until it is told to stop. -/
theorem step_running (orderly : Orderly c) (running : c.phase = .running) (e : Event) :
    (c.step e).phase = .running ∨ (c.step e).stopped = true := by
  cases step_proceeding orderly (orderly.going running) e with
  | keeps kept _ _ => exact .inl (kept.phase.trans running)
  | starts _ created _ _ => cases running.symm.trans created
  | stops _ _ stopped => exact .inr stopped
  | @concludes job w b result task _ replied eq =>
    have other : ∀ n, job ≠ .start n := by
      rintro n rfl
      rcases orderly.probing _ ⟨n, _, task, by simp⟩ with probing | stopped
      · cases running.symm.trans probing
      · cases running.symm.trans stopped
    rw [eq, conclude_phase b _ other result]
    exact .inl (replied.alike.phase.trans running)

/-- Only a background task that is spawned is held from then on. -/
theorem conclude_background (c : Client) (known : t ≠ c.nextTask) (job : Job)
    (result : Except Fault Payload) :
    (c.conclude t job result).background = c.background ∨
      (c.conclude t job result).background = some c.nextTask ∧
        (c.conclude t job result).Serves c.nextTask := by
  have ending := c.conclude_ending t job result
  generalize c.conclude t job result = d at ending
  cases ending with
  | ready n payload _ =>
    refine .inr ⟨rfl, false, .resting, ?_⟩
    exact ((task?_finish ..).trans (if_neg known.symm)).trans ((task?_stand ..).trans (if_pos rfl))
  | _ => exact .inl rfl

/-- What a client holds on to is a background task of its own. -/
theorem step_held (regular : Regular c) (held : ∀ u, c.background = some u → c.Serves u)
    (e : Event) (going : (c.step e).stopped = false) (u : TaskId)
    (now : (c.step e).background = some u) : (c.step e).Serves u := by
  have stays : c.background = some u → (c.step e).Serves u := fun eq =>
    (held u eq).step regular e
  cases step_proceeding regular.toOrderly (going_of_step going) e with
  | keeps kept _ _ => exact stays (kept.background.symm.trans now)
  | starts _ _ kept _ => exact stays (kept.background.symm.trans now)
  | stops _ _ stopped => cases stopped.symm.trans going
  | @concludes job w b result task _ replied eq =>
    have known : c.subject e ≠ b.nextTask := by
      rw [replied.alike.next]
      exact Nat.ne_of_lt (regular.known task)
    rcases conclude_background b known job result with same | ⟨spawned, serves⟩
    · exact stays ((same.trans replied.alike.background).symm.trans (eq ▸ now))
    · rw [eq] at now ⊢
      cases spawned.symm.trans now
      exact serves

theorem step_lone (regular : Regular c) (h : Lone c) (e : Event) : Lone (c.step e) := by
  have orderly' := step_orderly regular.toOrderly e
  have stays := (c.step_later e).stopped
  -- nobody serves a client that is about to become ready
  have nobody : c.phase = .probing → (c.step e).phase = .running → ∀ u, ¬ c.Serves u :=
    fun probing running =>
      h.nobody (by simp [probing]) (going_of_step (orderly'.going running))
  refine ⟨fun u v su sv => ?_, fun u su => ?_, fun going => ?_⟩
  · rcases step_serves regular e su with before | ⟨rfl, probing, running⟩
    · rcases step_serves regular e sv with before' | ⟨_, probing, running⟩
      · exact h.alone u v before before'
      · exact absurd before (nobody probing running u)
    · rcases step_serves regular e sv with before' | ⟨rfl, _⟩
      · exact absurd before' (nobody probing running v)
      · rfl
  · rcases step_serves regular e su with before | ⟨_, _, running⟩
    · rcases h.ready u before with running | stopped
      · exact step_running regular.toOrderly running e
      · exact .inr (stays stopped)
    · exact .inl running
  · exact step_held regular (h.held (going_of_step going)) e going

theorem run_lone (regular : Regular c) (h : Lone c) (events : List Event) :
    Lone (c.run events) :=
  regular.run_keeps (P := Lone) (fun _ e regular h => step_lone regular h e) h events

theorem create_lone {options : Options} {path : String} {listening : Bool} {choice : Nat}
    {disk : FileTree} (created : create options path listening choice disk = .ok c) : Lone c := by
  have nobody : ∀ u, ¬ c.Serves u := by
    rintro u ⟨_, _, task⟩
    cases ((create_pristine created).tasks u).symm.trans task
  exact ⟨fun u _ serves => absurd serves (nobody u), fun u serves => absurd serves (nobody u),
    fun _ u held => nomatch (create_pristine created).background.symm.trans held⟩

/-- All that the client has cached is what the probe of the task was told since it began, and so
is the time up to which the caches take account of changes. -/
structure Reloaded (c₀ : Client) (t : TaskId) (events : List Event) (d : Client) : Prop where
  catalog : CatalogHeard c₀ t events d.directory.catalog
  configs : c₀.options.skipConfig = false → ∃ items,
    Heard c₀ t events (.configs c₀.options.role.configModule) .configs items ∧
      d.directory.configs = .ofList items
  timed : c₀.options.role ≠ .tool → ∃ r hb,
    Heard c₀ t events (.heartbeat r) .heartbeat hb ∧ d.watermark = hb.lastUpdate
  untimed : c₀.options.role = .tool → d.watermark = c₀.watermark

/-- A probe begins with a heartbeat, unless it is one of a tool. -/
structure Opened (c₀ : Client) (t : TaskId) : Prop where
  beats : c₀.options.role ≠ .tool → ∃ r, c₀.Opens t (.beat r)
  lists : c₀.options.role = .tool → c₀.Opens t .listing

theorem Opens.unique {stage stage' : Stage} (h : c.Opens t stage) (h' : c.Opens t stage') :
    stage = stage' := by
  obtain ⟨job, task⟩ := h
  obtain ⟨job', task'⟩ := h'
  cases task.symm.trans task'
  rfl

/-- What a cycle was told of the time of the last change by the end of its last call. -/
theorem Timed.known {remote : Option Int64} {stage : Stage} (h : Timed c₀ t events remote stage)
    (apart : ∀ r, stage ≠ .beat r) (opened : Opened c₀ t) {watermark : Int64}
    (kept : watermark = c₀.watermark) :
    (c₀.options.role ≠ .tool → ∃ r hb, Heard c₀ t events (.heartbeat r) .heartbeat hb ∧
      remote.getD watermark = hb.lastUpdate) ∧
    (c₀.options.role = .tool → remote.getD watermark = c₀.watermark) := by
  cases h with
  | beat _ => exact absurd rfl (apart _)
  | @told r hb _ opens heard _ =>
    exact ⟨fun _ => ⟨r, hb, heard, rfl⟩, fun tool => nomatch opens.unique (opened.lists tool)⟩
  | untold opens _ =>
    refine ⟨fun other => ?_, fun _ => kept⟩
    obtain ⟨r, beats⟩ := opened.beats other
    cases opens.unique beats

variable {n : Nat} {payload : Payload}

theorem Built.reloaded {hosts : List HostItem} {spaces : List Space} {ids : List SpaceId}
    (h : Built c (.start n) w hosts spaces ids d (.ended (.ok payload)))
    (cycling : Cycling c₀ t events c w) (later : Later c₀ c)
    (gathered : Gathered c₀ t events spaces ids hosts) (apart : ∀ r, w.stage ≠ .beat r)
    (opened : Opened c₀ t) : Reloaded c₀ t events d := by
  obtain ⟨timed, untimed⟩ := cycling.timed.known apart opened cycling.watermark
  cases h with
  | data load => cases load
  | bare _ skips =>
    obtain ⟨estimates, installed⟩ := c.install_eq (.ofList spaces) hosts
    refine ⟨?_, fun loads => ?_, timed, untimed⟩
    · rw [installed]
      exact gathered.catalog
    · rw [later.options, loads] at skips
      cases skips

theorem Advancing.reloaded (h : Advancing c (.start n) w d (.ended (.ok payload)))
    (cycling : Cycling c₀ t events c w) (later : Later c₀ c) (opened : Opened c₀ t) :
    Reloaded c₀ t events d := by
  cases h with
  | beats r stage hb done _ _ beaten =>
    cases beaten with
    | ended other _ => exact absurd rfl (other n)
  | lists stage names hosts done built known =>
    exact built.reloaded cycling later (cycling.listed_data stage done known) (by simp [stage])
      opened
  | builds id rest before hosts stage data desc parts tags edges tagIndexes edgeIndexes built =>
    exact built.reloaded cycling later
      (cycling.built_data stage desc parts tags edges tagIndexes edgeIndexes) (by simp [stage])
      opened
  | configures scope stage items done =>
    obtain ⟨timed, untimed⟩ :=
      cycling.timed.known (by simp [stage]) opened cycling.watermark
    obtain ⟨catalog, heard, replaced⟩ := cycling.after scope stage
    obtain ⟨news, _, configured⟩ := c.configure_eq items
    refine ⟨?_, fun _ => ⟨items, ?_, ?_⟩, timed, untimed⟩
    · rw [configured, replaced.directory]
      exact heard
    · have told := cycling.heard .configs items done
      rwa [stage, cycling.own scope stage] at told
    · rw [configured]
  | asked q request stage _ => exact absurd stage (cycling.apart q request)

/-- An answer that makes the client ready is the last one to a probe that has read everything. -/
theorem Answering.reloaded {s : Sending} {outcome : Except Fault (MetaReply q.Value)}
    (h : Answering c t q job w outcome d) (calling : c.Calling t q job w s)
    (cycling : Cycling c₀ t events c w) (now : c₀.run events = c) (choice : Nat)
    (opened : Opened c₀ t) (before : c.phase ≠ .running) (after : d.phase = .running) :
    Reloaded c₀ t (events ++ [.answer t q choice outcome]) d := by
  have later : Later c₀ c := now ▸ run_later c₀ events
  cases h with
  | again _ _ _ => exact absurd after before
  | pauses _ _ _ => exact absurd after before
  | fails _ fault ending _ => exact absurd (ending.steady.running after) before
  | advances _ _ _ advancing _ => exact absurd (advancing.alike.phase.symm.trans after) before
  | ends estimates leader v advancing ending _ =>
    rcases ending.running after with running | ⟨n, payload, rfl, rfl⟩
    · exact absurd (advancing.alike.phase.symm.trans running) before
    · have answered := cycling.answered calling now choice leader v estimates
      have reloaded := advancing.reloaded answered
        ⟨later.options, later.listening, later.stopped⟩ opened
      have quiet := ending.quiet
      exact ⟨quiet.directory ▸ reloaded.catalog, quiet.directory ▸ reloaded.configs,
        quiet.watermark ▸ reloaded.timed, quiet.watermark ▸ reloaded.untimed⟩

/-- In the run the task has begun a probe and was at work up to the last event, and the client
has read everything since then. -/
def ReloadedIn (c : Client) (t : TaskId) (events : List Event) (d : Client) : Prop :=
  ∃ before first after last n, events = before ++ first :: (after ++ [last]) ∧
    ¬ (c.run before).Working t ∧
    (c.run (before ++ [first])).task? t =
      some ⟨.start n, .working (.begin none ((c.run before).firstStage (.start n)))⟩ ∧
    (∀ seen, seen <+: after → (c.run (before ++ first :: seen)).Busy t) ∧
    Reloaded (c.run (before ++ [first])) t (after ++ [last]) d

theorem opened_of_begin {b : Client} (options : b.options = c.options)
    (task : c.task? t = some ⟨.start n, .working (.begin none (b.firstStage (.start n)))⟩) :
    Opened c t where
  beats other := ⟨b.heartbeatRequest, .start n, by
    rwa [firstStage, if_neg (options ▸ other)] at task⟩
  lists tool := ⟨.start n, by rwa [firstStage, if_pos (options ▸ tool)] at task⟩

/-- A probe that has been at work since a moment of the run. -/
theorem Entered.cycling (regular : Regular c) (h : Entered c events t)
    (task : (c.run events).task? t = some ⟨.start n, .working w⟩) :
    ∃ before first after m, events = before ++ first :: after ∧ ¬ (c.run before).Working t ∧
      (c.run (before ++ [first])).task? t =
        some ⟨.start m, .working (.begin none ((c.run before).firstStage (.start m)))⟩ ∧
      (∀ seen, seen <+: after → (c.run (before ++ first :: seen)).Busy t) ∧
      Cycling (c.run (before ++ [first])) t after (c.run events) w := by
  obtain ⟨before, first, after, job, rfl, idle, begun, _, since⟩ := h
  rw [run_past] at task
  have regular' := run_regular regular (before ++ [first])
  obtain ⟨m, rfl⟩ : ∃ m, job = .start m := by
    obtain ⟨job', standing, task', kept⟩ := run_keepsJob regular' after begun
    cases task'.symm.trans task
    cases kept with
    | same => exact ⟨n, rfl⟩
    | tries m _ => exact ⟨m, rfl⟩
  have goes : ∀ seen, seen <+: after → ((c.run (before ++ [first])).run seen).Busy t := by
    intro seen prefixed
    rw [← run_past]
    exact since seen prefixed
  obtain ⟨job, w', task', _, cycling⟩ :=
    run_atWork regular' (firstStage_opening _ rfl) begun rfl after goes
  cases task'.symm.trans task
  refine ⟨before, first, after, m, rfl, idle, begun, since, ?_⟩
  rw [run_past c before after first]
  exact cycling

/-- What makes a client ready is the end of a probe that has read everything. -/
theorem reloaded_of_ready (regular : Regular c) (events : List Event) (e : Event)
    (idle : ¬ c.Busy ((c.run events).subject e)) (before : (c.run events).phase ≠ .running)
    (after : ((c.run events).step e).phase = .running) :
    ReloadedIn c ((c.run events).subject e) (events ++ [e]) ((c.run events).step e) := by
  have regular' := run_regular regular events
  have going' := (step_orderly regular'.toOrderly e).going after
  have moved : (c.run events).step e ≠ c.run events := fun same => before (same ▸ after)
  cases step_proceeding regular'.toOrderly (going_of_step going') e with
  | keeps kept _ _ => exact absurd (kept.phase.symm.trans after) before
  | starts _ _ kept _ => cases kept.phase.symm.trans after
  | stops _ _ stopped => cases going'.symm.trans stopped
  | @concludes job w b result task comes replied eq =>
    obtain ⟨n, rfl⟩ : ∃ n, job = .start n := by
      refine Classical.byContradiction fun none => before ?_
      have same := conclude_phase b ((c.run events).subject e) (fun n is => none ⟨n, is⟩) result
      exact (replied.alike.phase.symm.trans same.symm).trans (eq ▸ after)
    cases e with
    | answer t q choice outcome =>
      have entered := run_entered regular idle events ⟨_, w, task, rfl⟩
      obtain ⟨start, first, rest, m, split, resting, begun, since, cycling⟩ :=
        entered.cycling regular task
      rcases (c.run events).answer_cases t q choice outcome with
        same | ⟨_, _, s, calling, answering⟩
      · exact absurd same moved
      cases calling.task.symm.trans task
      have options := ((c.run start).step_later first).options
      have opened : Opened (c.run (start ++ [first])) t :=
        opened_of_begin (options ▸ run_concat c start first ▸ rfl) begun
      have now : (c.run (start ++ [first])).run rest = c.run events := by
        rw [split, run_past c start rest first]
      refine ⟨start, first, rest, .answer t q choice outcome, m, by simp [split], resting,
        begun, since, ?_⟩
      exact answering.reloaded calling cycling now choice opened before after
    | _ => cases comes

end Client

end ClusterClient
