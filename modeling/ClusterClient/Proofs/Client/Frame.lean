import ClusterClient.Proofs.Client.Order
/-!
What a step leaves alone: it is about one task, which has not come to its end, and about
the flags that only ever change one way.
-/
namespace ClusterClient.Client

variable {c d : Client} {t u : TaskId} {job : Job}

/-- What can become of a task that a step is not about. -/
inductive Beside (c d : Client) (u : TaskId) : Prop
  | same (h : d.task? u = c.task? u)
  | spawned (new : u = c.nextTask) (h : d.task? u = some ⟨.background false, .resting⟩)
      (ready : c.phase = .probing ∧ d.phase = .running)
  | told (told : Bool) (standing : Standing)
      (before : c.task? u = some ⟨.background told, standing⟩)
      (after : d.task? u = some ⟨.background true, standing⟩)

/-- The step can as well be one of a client with the same tasks. -/
theorem Beside.before {b : Client} (h : Beside c d u) (same : c.task? u = b.task? u)
    (next : c.nextTask = b.nextTask) (phase : c.phase = b.phase) : Beside b d u := by
  cases h with
  | same h => exact .same (h.trans same)
  | spawned new h ready => exact .spawned (new.trans next) h (phase ▸ ready)
  | told told standing before after => exact .told told standing (same.symm.trans before) after

/-- Only the end of a probe that got through is about another task too. -/
theorem Ending.others {fault : Fault} (h : Ending c t job (.error fault) d) (ne : u ≠ t) :
    d.task? u = c.task? u := by
  cases h with
  | kept clear _ => rfl
  | answered _ _ => exact (task?_finish ..).trans (if_neg ne)
  | finishes _ _ outcome fatal _ _ => exact (task?_finish ..).trans (if_neg ne)
  | rests _ fatal next _ => exact (task?_stand ..).trans (if_neg ne)
  | givesUp n _ fatal _ => exact (task?_finish ..).trans (if_neg ne)

theorem Ending.beside {result : Except Fault Payload} (h : Ending c t job result d) (ne : u ≠ t) :
    Beside c d u := by
  cases result with
  | error fault => exact .same (h.others ne)
  | ok payload =>
    cases h with
    | kept clear _ => exact .same rfl
    | answered _ _ => exact .same ((task?_finish ..).trans (if_neg ne))
    | finishes _ _ outcome fatal _ _ => exact .same ((task?_finish ..).trans (if_neg ne))
    | rests _ fatal next _ => exact .same ((task?_stand ..).trans (if_neg ne))
    | ready n _ probing =>
      have spawned : c.release.spawnBackground.task? u =
          if u = c.nextTask then some ⟨.background false, .resting⟩ else c.task? u :=
        task?_stand ..
      by_cases new : u = c.nextTask
      · refine .spawned new ?_ ⟨probing, rfl⟩
        rw [task?_finish, if_neg ne, spawned, if_pos new]
      · refine .same ?_
        rw [task?_finish, if_neg ne, spawned, if_neg new]

theorem Entry.others (h : Entry c t job d) (ne : u ≠ t) : d.task? u = c.task? u := by
  cases h with
  | stops clear directory estimates _ _ =>
    exact (c.release.task?_finish t (.stop clear) (.ok .nothing) u).trans (if_neg ne)
  | refused _ _ ends => exact ends.others ne
  | begins _ _ => exact (task?_stand ..).trans (if_neg ne)

theorem Queueing.others (h : Queueing c t job d) (ne : u ≠ t) : d.task? u = c.task? u := by
  cases h with
  | waits v _ => exact (task?_stand ..).trans (if_neg ne)
  | turns _ entry => exact entry.others ne

theorem Dialling.others {q : Query} (h : Dialling c t q d) (ne : u ≠ t) :
    d.task? u = c.task? u := by
  cases h with
  | made _ estimates s => exact (task?_stand ..).trans (if_neg ne)

theorem Resuming.others (h : Resuming c t d) (ne : u ≠ t) : d.task? u = c.task? u := by
  cases h with
  | enters _ _ entry => exact entry.others ne
  | ends _ => exact (task?_finish ..).trans (if_neg ne)
  | rested _ queueing => exact queueing.others ne
  | joined _ _ queueing => exact queueing.others ne

theorem Answering.beside {q : Query} {w : Work} {outcome : Except Fault (MetaReply q.Value)}
    (h : Answering c t q job w outcome d) (ne : u ≠ t) : Beside c d u := by
  cases h with
  | again estimates s => exact .same ((task?_stand ..).trans (if_neg ne))
  | pauses estimates s => exact .same ((task?_stand ..).trans (if_neg ne))
  | fails estimates fault ending => exact .same (ending.others ne)
  | advances estimates leader v advancing =>
    exact .same (((task?_stand ..).trans (if_neg ne)).trans
      (congrArg (·.get? u) advancing.alike.tasks))
  | ends estimates leader v advancing ending =>
    have like := advancing.alike
    exact (ending.beside ne).before (congrArg (·.get? u) like.tasks) like.next like.phase

theorem beside_tellBackground (c : Client) (b : TaskId) : Beside c (c.tellBackground b) u := by
  rcases c.tellBackground_eq b with eq | ⟨told, standing, task, eq⟩
  · rw [eq]
    exact .same rfl
  · rw [eq]
    by_cases ne : u = b
    · subst ne
      exact .told told standing task (by simp)
    · exact .same ((task?_stand ..).trans (if_neg ne))

/-- What is begun has the number that comes next. -/
theorem Beginning.beside {op : Operation} (h : Beginning c op d) (ne : u ≠ c.nextTask) :
    Beside c d u := by
  cases h with
  | joins clear b _ =>
    have other := (c.halting.tellBackground b).task?_stand c.nextTask (.stop clear) (.joining b) u
    rw [if_neg ne] at other
    cases c.halting.beside_tellBackground b with
    | same h => exact .same (other.trans h)
    | spawned _ _ ready => cases ready.1
    | told told standing before after => exact .told told standing before (other.trans after)
  | start _ h => exact .same (h.others ne)
  | stop clear _ h => exact .same (h.others ne)
  | refresh h => exact .same (h.others ne)
  | loadData h => exact .same (h.others ne)
  | loadConfig h => exact .same (h.others ne)
  | declined result _ _ _ => exact .same ((task?_finish ..).trans (if_neg ne))
  | ignored => exact .same ((task?_finish ..).trans (if_neg ne))
  | heartbeat => exact .same ((task?_stand ..).trans (if_neg ne))
  | ask q request => exact .same ((task?_stand ..).trans (if_neg ne))

/-- The task that an event is about. -/
def subject (c : Client) : Event → TaskId
  | .invoke _ => c.nextTask
  | .call t _ | .answer t _ _ _ | .wake t _ | .resume t => t

theorem step_beside (c : Client) (e : Event) (ne : u ≠ c.subject e) : Beside c (c.step e) u := by
  have move := c.step_move e
  generalize c.step e = d at move
  cases move with
  | nothing => exact .same rfl
  | begins beginning => exact beginning.beside ne
  | calls dialling => exact .same (dialling.others ne)
  | wakes dialling => exact .same (dialling.others ne)
  | resumes resuming => exact .same (resuming.others ne)
  | answers _ answering => exact answering.beside ne

/-- A task that a step is not about stands as before, and was told to stop at most. -/
theorem step_stays (h : Orderly c) (e : Event) {standing : Standing}
    (task : c.task? t = some ⟨job, standing⟩) (ne : t ≠ c.subject e) :
    (c.step e).task? t = some ⟨job, standing⟩ ∨ ∃ told, job = .background told ∧
      (c.step e).task? t = some ⟨.background true, standing⟩ := by
  cases c.step_beside e ne with
  | same same => exact .inl (same.trans task)
  | spawned new _ _ => exact absurd (h.known task) (Nat.not_lt_of_le (Nat.le_of_eq new.symm))
  | told told _ before after =>
    cases before.symm.trans task
    exact .inr ⟨told, rfl, after⟩

theorem Dialling.live {q : Query} (h : Dialling c t q d) {r : Except Fault Payload} :
    c.task? t ≠ some ⟨job, .done r⟩ := by
  cases h with
  | made task _ _ => simp [task]

theorem Resuming.live (h : Resuming c t d) {r : Except Fault Payload} :
    c.task? t ≠ some ⟨job, .done r⟩ := by
  cases h with
  | enters task _ _ => simp [task]
  | ends task => simp [task]
  | rested task _ => simp [task]
  | joined task _ _ => simp [task]

theorem Resuming.not_working (h : Resuming c t d) {w : Work} :
    c.task? t ≠ some ⟨job, .working w⟩ := by
  cases h with
  | enters task _ _ => simp [task]
  | ends task => simp [task]
  | rested task _ => simp [task]
  | joined task _ _ => simp [task]

/-- Nothing can be done to a task that is over. -/
theorem step_over (h : Orderly c) (e : Event) {r : Except Fault Payload}
    (ended : c.task? (c.subject e) = some ⟨job, .done r⟩) : c.step e = c := by
  have move := c.step_move e
  generalize c.step e = d at move
  cases move with
  | nothing => rfl
  | begins beginning =>
    rw [subject, h.fresh c.nextTask (Nat.le_refl _)] at ended
    cases ended
  | calls dialling => exact absurd ended dialling.live
  | wakes dialling => exact absurd ended dialling.live
  | resumes resuming => exact absurd ended resuming.live
  | answers calling _ =>
    rw [subject, calling.task] at ended
    cases ended

/-- A task that is over stays over, with the result that it has. -/
theorem step_done (h : Orderly c) (e : Event) {r : Except Fault Payload}
    (front : ∀ told, job ≠ .background told) (task : c.task? t = some ⟨job, .done r⟩) :
    (c.step e).task? t = some ⟨job, .done r⟩ := by
  by_cases eq : t = c.subject e
  · rw [step_over h e (eq ▸ task), task]
  · rcases step_stays h e task eq with same | ⟨told, background, _⟩
    · exact same
    · exact absurd background (front told)

theorem run_done (h : Orderly c) (events : List Event) {r : Except Fault Payload}
    (front : ∀ told, job ≠ .background told) (task : c.task? t = some ⟨job, .done r⟩) :
    (c.run events).task? t = some ⟨job, .done r⟩ := by
  induction events generalizing c with
  | nil => exact task
  | cons e events ih => exact ih (step_orderly h e) (step_done h e front task)

/-- The settings of a client are for good, and so is that it was told to stop. -/
structure Later (c d : Client) : Prop where
  options : d.options = c.options
  listening : d.listening = c.listening
  stopped : c.stopped = true → d.stopped = true

theorem Later.trans {b : Client} (h : Later b c) (h' : Later c d) : Later b d where
  options := h'.options.trans h.options
  listening := h'.listening.trans h.listening
  stopped stopped := h'.stopped (h.stopped stopped)

theorem Alike.later (h : Alike c d) : Later c d where
  options := h.options
  listening := h.listening
  stopped stopped := h.stopped.trans stopped

theorem Ending.later {result : Except Fault Payload} (h : Ending c t job result d) :
    Later c d := by
  cases h <;> exact ⟨rfl, rfl, id⟩

theorem Entry.later (h : Entry c t job d) : Later c d := by
  cases h with
  | stops clear directory estimates _ _ => exact ⟨rfl, rfl, id⟩
  | refused _ _ ends => exact ends.later
  | begins _ _ => exact ⟨rfl, rfl, id⟩

theorem Queueing.later (h : Queueing c t job d) : Later c d := by
  cases h with
  | waits u _ => exact ⟨rfl, rfl, id⟩
  | turns _ entry => exact ⟨entry.later.options, entry.later.listening, entry.later.stopped⟩

theorem Dialling.later {q : Query} (h : Dialling c t q d) : Later c d := by
  cases h with
  | made _ estimates s => exact ⟨rfl, rfl, id⟩

theorem Resuming.later (h : Resuming c t d) : Later c d := by
  cases h with
  | enters _ _ entry => exact entry.later
  | ends _ => exact ⟨rfl, rfl, id⟩
  | rested _ queueing => exact queueing.later
  | joined _ _ queueing => exact queueing.later

theorem Answering.later {q : Query} {w : Work} {outcome : Except Fault (MetaReply q.Value)}
    (h : Answering c t q job w outcome d) : Later c d := by
  have quiet : ∀ estimates, Later c { c with estimates } := fun _ => ⟨rfl, rfl, id⟩
  cases h with
  | again estimates s => exact ⟨rfl, rfl, id⟩
  | pauses estimates s => exact ⟨rfl, rfl, id⟩
  | fails estimates fault ending => exact (quiet estimates).trans ending.later
  | advances estimates leader v advancing =>
    have turned := (quiet estimates).trans advancing.alike.later
    exact ⟨turned.options, turned.listening, turned.stopped⟩
  | ends estimates leader v advancing ending =>
    exact ((quiet estimates).trans advancing.alike.later).trans ending.later

theorem Beginning.later {op : Operation} (h : Beginning c op d) : Later c d := by
  have numbered : Later c c.numbered := ⟨rfl, rfl, id⟩
  have halting : Later c c.halting := ⟨rfl, rfl, fun _ => rfl⟩
  cases h with
  | start _ h => exact ⟨h.later.options, h.later.listening, h.later.stopped⟩
  | joins clear b _ =>
    obtain ⟨tasks, eq⟩ := c.halting.tellBackground_tasks b
    rw [eq]
    exact ⟨rfl, rfl, fun _ => rfl⟩
  | stop clear _ h => exact halting.trans h.later
  | refresh h => exact numbered.trans h.later
  | loadData h => exact numbered.trans h.later
  | loadConfig h => exact numbered.trans h.later
  | _ => exact ⟨rfl, rfl, id⟩

theorem step_later (c : Client) (e : Event) : Later c (c.step e) := by
  have move := c.step_move e
  generalize c.step e = c' at move
  cases move with
  | nothing => exact ⟨rfl, rfl, id⟩
  | begins beginning => exact beginning.later
  | calls dialling => exact dialling.later
  | wakes dialling => exact dialling.later
  | resumes resuming => exact resuming.later
  | answers calling answering => exact answering.later

theorem run_later (c : Client) (events : List Event) : Later c (c.run events) := by
  induction events generalizing c with
  | nil => exact ⟨rfl, rfl, id⟩
  | cons e events ih => exact (c.step_later e).trans (ih _)

/-- The clients have cached and told the same. -/
structure Quiet (c d : Client) : Prop where
  directory : d.directory = c.directory
  notices : d.notices = c.notices
  watermark : d.watermark = c.watermark

structure Steady (c d : Client) : Prop extends Quiet c d where
  running : d.phase = .running → c.phase = .running

/-- A stop that clears the caches has had its turn, and is over. -/
structure Cleared (c d : Client) (t : TaskId) : Prop where
  turn : c.holder = none ∨ c.holder = some t
  ended : d.task? t = some ⟨.stop true, .done (.ok .nothing)⟩
  directory : d.directory = .empty
  notices : d.notices = c.notices
  watermark : d.watermark = c.watermark

theorem Ending.quiet {result : Except Fault Payload} (h : Ending c t job result d) : Quiet c d := by
  cases h <;> exact ⟨rfl, rfl, rfl⟩

theorem Ending.running {result : Except Fault Payload} (h : Ending c t job result d)
    (running : d.phase = .running) :
    c.phase = .running ∨ ∃ n payload, job = .start n ∧ result = .ok payload := by
  cases h with
  | ready n payload _ => exact .inr ⟨n, payload, rfl, rfl⟩
  | givesUp n fault fatal _ => cases running
  | _ => exact .inl running

theorem Ending.steady {fault : Fault} (h : Ending c t job (.error fault) d) : Steady c d where
  toQuiet := h.quiet
  running running := by
    rcases h.running running with running | ⟨_, _, _, eq⟩
    · exact running
    · cases eq

theorem Entry.steady (h : Entry c t job d) (held : c.holder = some t) :
    Steady c d ∨ Cleared c d t := by
  cases h with
  | stops clear directory estimates kept emptied =>
    cases clear with
    | false => exact .inl ⟨⟨kept rfl, rfl, rfl⟩, id⟩
    | true =>
      have ended := c.release.task?_finish t (.stop true) (.ok .nothing) t
      exact .inr ⟨.inr held, ended.trans (if_pos rfl), emptied rfl, rfl, rfl⟩
  | refused _ _ ends => exact .inl ends.steady
  | begins _ _ => exact .inl ⟨⟨rfl, rfl, rfl⟩, id⟩

theorem Queueing.steady (h : Queueing c t job d) : Steady c d ∨ Cleared c d t := by
  cases h with
  | waits u _ => exact .inl ⟨⟨rfl, rfl, rfl⟩, id⟩
  | turns free entry =>
    rcases entry.steady rfl with same | cleared
    · exact .inl ⟨⟨same.directory, same.notices, same.watermark⟩, same.running⟩
    · exact .inr ⟨.inl free, cleared.ended, cleared.directory, cleared.notices,
        cleared.watermark⟩

theorem Dialling.steady {q : Query} (h : Dialling c t q d) : Steady c d := by
  cases h with
  | made _ estimates s => exact ⟨⟨rfl, rfl, rfl⟩, id⟩

theorem Resuming.steady (h : Resuming c t d) : Steady c d ∨ Cleared c d t := by
  cases h with
  | enters _ turn entry => exact entry.steady turn
  | ends _ => exact .inl ⟨⟨rfl, rfl, rfl⟩, id⟩
  | rested _ queueing => exact queueing.steady
  | joined _ _ queueing => exact queueing.steady

theorem Beginning.steady {op : Operation} (h : Beginning c op d) :
    Steady c d ∨ Cleared c d c.nextTask := by
  have queueing : ∀ {e : Client} {job}, Queueing e c.nextTask job d → Steady c e →
      e.holder = c.holder → Steady c d ∨ Cleared c d c.nextTask := by
    intro e job queueing same holder
    rcases queueing.steady with next | cleared
    · exact .inl ⟨⟨next.directory.trans same.directory, next.notices.trans same.notices,
        next.watermark.trans same.watermark⟩, fun running => same.running (next.running running)⟩
    · exact .inr ⟨holder ▸ cleared.turn, cleared.ended, cleared.directory,
        cleared.notices.trans same.notices, cleared.watermark.trans same.watermark⟩
  cases h with
  | start _ h => exact queueing h ⟨⟨rfl, rfl, rfl⟩, fun eq => by cases eq⟩ rfl
  | joins clear b _ =>
    obtain ⟨tasks, eq⟩ := c.halting.tellBackground_tasks b
    rw [eq]
    exact .inl ⟨⟨rfl, rfl, rfl⟩, fun running => by cases running⟩
  | stop clear _ h => exact queueing h ⟨⟨rfl, rfl, rfl⟩, fun eq => by cases eq⟩ rfl
  | refresh h => exact queueing h ⟨⟨rfl, rfl, rfl⟩, id⟩ rfl
  | loadData h => exact queueing h ⟨⟨rfl, rfl, rfl⟩, id⟩ rfl
  | loadConfig h => exact queueing h ⟨⟨rfl, rfl, rfl⟩, id⟩ rfl
  | _ => exact .inl ⟨⟨rfl, rfl, rfl⟩, id⟩

/-- A stop is never at work, and what is no cycle keeps to one group of calls. -/
structure Suits (job : Job) (w : Work) : Prop where
  worker : ∀ clear, job ≠ .stop clear
  heartbeat : job = .heartbeat → ∃ r, w.stage = .beat r
  ask : job = .ask → ∃ q r, w.stage = .ask q r

theorem Suits.slots {w : Work} (h : Suits job w) (slots : Slots) : Suits job { w with slots } :=
  ⟨h.worker, h.heartbeat, h.ask⟩

theorem suits_begin (worker : ∀ clear, job ≠ .stop clear) (cycles : job.cycles = true)
    (remote : Option Int64) (stage : Stage) : Suits job (.begin remote stage) where
  worker := worker
  heartbeat eq := by
    rw [eq] at cycles
    cases cycles
  ask eq := by
    rw [eq] at cycles
    cases cycles

variable {w : Work} {q : Query}

theorem job_of_idle (idle : job.cycles = false) : job = .heartbeat ∨ job = .ask := by
  cases job with
  | heartbeat => exact .inl rfl
  | ask => exact .inr rfl
  | _ => cases idle

/-- What is no cycle leaves the caches alone. -/
theorem Advancing.idle {progress : Progress} (h : Advancing c job w d progress)
    (suits : Suits job w) (idle : job.cycles = false) :
    Steady c d ∧ ∀ w', progress = .more w' → w' = w := by
  have stage : (∃ r, job = .heartbeat ∧ w.stage = .beat r) ∨ ∃ q r, w.stage = .ask q r := by
    rcases job_of_idle idle with eq | eq
    · obtain ⟨r, stage⟩ := suits.heartbeat eq
      exact .inl ⟨r, eq, stage⟩
    · exact .inr (suits.ask eq)
  cases h with
  | waits =>
    refine ⟨⟨⟨rfl, rfl, rfl⟩, id⟩, ?_⟩
    rintro w' ⟨⟩
    rfl
  | beats r at_beat hb heard clusterId disk beaten =>
    refine ⟨⟨⟨rfl, rfl, rfl⟩, id⟩, ?_⟩
    rintro w' rfl
    cases beaten with
    | started n => cases idle
    | later not_beat _ =>
      rcases stage with ⟨_, eq, _⟩ | ⟨_, _, eq⟩
      · exact absurd eq not_beat
      · rw [at_beat] at eq
        cases eq
  | asked q request at_ask result =>
    refine ⟨⟨⟨rfl, rfl, rfl⟩, id⟩, ?_⟩
    rintro w' ⟨⟩
  | lists other _ _ _ _ =>
    rcases stage with ⟨_, _, eq⟩ | ⟨_, _, eq⟩ <;> rw [eq] at other <;> cases other
  | builds _ _ _ _ other _ _ _ _ _ _ _ _ =>
    rcases stage with ⟨_, _, eq⟩ | ⟨_, _, eq⟩ <;> rw [eq] at other <;> cases other
  | configures _ other _ _ =>
    rcases stage with ⟨_, _, eq⟩ | ⟨_, _, eq⟩ <;> rw [eq] at other <;> cases other

theorem Answering.steady {outcome : Except Fault (MetaReply q.Value)}
    (h : Answering c t q job w outcome d) (suits : Suits job w) (idle : job.cycles = false) :
    Steady c d := by
  cases h with
  | again estimates s => exact ⟨⟨rfl, rfl, rfl⟩, id⟩
  | pauses estimates s => exact ⟨⟨rfl, rfl, rfl⟩, id⟩
  | fails estimates fault ending =>
    have after := ending.steady
    exact ⟨⟨after.directory, after.notices, after.watermark⟩, after.running⟩
  | advances estimates leader v advancing =>
    obtain ⟨steady, _⟩ := advancing.idle (suits.slots _) idle
    exact ⟨⟨steady.directory, steady.notices, steady.watermark⟩, steady.running⟩
  | ends estimates leader v advancing ending =>
    obtain ⟨steady, _⟩ := advancing.idle (suits.slots _) idle
    have quiet := ending.quiet
    refine ⟨⟨quiet.directory.trans steady.directory, quiet.notices.trans steady.notices,
      quiet.watermark.trans steady.watermark⟩, fun running => ?_⟩
    rcases ending.running running with running | ⟨n, _, eq, _⟩
    · exact steady.running running
    · rw [eq] at idle
      cases idle

/-- What is cached changes only by a cycle at work, or by a stop that clears it. -/
theorem step_cached (suits : ∀ t job w, c.task? t = some ⟨job, .working w⟩ → Suits job w)
    (e : Event) : Steady c (c.step e) ∨ Cleared c (c.step e) (c.subject e) ∨
      ∃ job w, c.task? (c.subject e) = some ⟨job, .working w⟩ ∧ job.cycles = true := by
  have move := c.step_move e
  generalize c.step e = d at move
  cases move with
  | nothing => exact .inl ⟨⟨rfl, rfl, rfl⟩, id⟩
  | begins beginning => exact beginning.steady.imp id .inl
  | calls dialling => exact .inl dialling.steady
  | wakes dialling => exact .inl dialling.steady
  | resumes resuming => exact resuming.steady.imp id .inl
  | @answers t _ _ _ job w _ _ calling answering =>
    cases cycles : job.cycles with
    | true => exact .inr (.inr ⟨job, w, calling.task, cycles⟩)
    | false => exact .inl (answering.steady (suits t job w calling.task) cycles)

/-- So it changes only in the turn of the task that a step is about. -/
theorem step_turn (orderly : Orderly c)
    (suits : ∀ t job w, c.task? t = some ⟨job, .working w⟩ → Suits job w) (e : Event) :
    Steady c (c.step e) ∨ c.holder = none ∨ c.holder = some (c.subject e) := by
  rcases step_cached suits e with steady | cleared | ⟨job, w, task, cycles⟩
  · exact .inl steady
  · exact .inr cleared.turn
  · exact .inr (.inr (orderly.locked _ job w task cycles))

end ClusterClient.Client
