import ClusterClient.Proofs.Client.Moves
/-!
The order that every run of a client keeps: one cycle at a time, one pending start at a
time, and no readiness once the client was told to stop.
-/
namespace ClusterClient.Client

variable {c d : Client} {t : TaskId} {job : Job}

/-- The task is a start that has not come to its end. -/
def Starting (c : Client) (t : TaskId) : Prop :=
  ∃ n standing, c.task? t = some ⟨.start n, standing⟩ ∧ ∀ r, standing ≠ .done r

structure Orderly (c : Client) : Prop where
  fresh : ∀ t, c.nextTask ≤ t → c.task? t = none
  warned : ∀ t clear standing, c.task? t = some ⟨.stop clear, standing⟩ → c.stopped = true
  locked : ∀ t job w, c.task? t = some ⟨job, .working w⟩ → job.cycles = true → c.holder = some t
  single : ∀ t u, c.Starting t → c.Starting u → t = u
  probing : ∀ t, c.Starting t → c.phase = .probing ∨ c.phase = .stopped
  halted : c.phase = .stopped → c.stopped = true
  dead : c.stopped = true → c.phase ≠ .running
  /-- After a start has given up, a new one may probe again, but never gets to work. -/
  late : c.stopped = true → c.phase = .probing → ∀ t n w,
    c.task? t ≠ some ⟨.start n, .working w⟩

/-- What a task needs to be given a standing of a job. -/
structure Admitted (c : Client) (t : TaskId) (job : Job) : Prop where
  known : t < c.nextTask
  warned : ∀ clear, job = .stop clear → c.stopped = true
  alone : ∀ n, job = .start n → ∀ u, c.Starting u → u = t
  phase : ∀ n, job = .start n → c.phase = .probing ∨ c.phase = .stopped

theorem Orderly.known (h : Orderly c) {task : Task} (ht : c.task? t = some task) :
    t < c.nextTask := by
  refine Nat.lt_of_not_le fun le => ?_
  rw [h.fresh t le] at ht
  cases ht

theorem Orderly.admitted (h : Orderly c) {standing : Standing}
    (task : c.task? t = some ⟨job, standing⟩) (live : ∀ r, standing ≠ .done r) :
    Admitted c t job where
  known := h.known task
  warned clear eq := h.warned t clear standing (eq ▸ task)
  alone n eq u hu := h.single u t hu ⟨n, standing, eq ▸ task, live⟩
  phase n eq := h.probing t ⟨n, standing, eq ▸ task, live⟩

theorem starting_stand_of_ne {standing : Standing} {u : TaskId} (ne : u ≠ t)
    (h : (d.stand t job standing).Starting u) : d.Starting u := by
  obtain ⟨n, standing, task, live⟩ := h
  rw [task?_stand, if_neg ne] at task
  exact ⟨n, standing, task, live⟩

theorem starting_stand_self {standing : Standing} (h : (d.stand t job standing).Starting t) :
    (∃ n, job = .start n) ∧ ∀ r, standing ≠ .done r := by
  obtain ⟨n, standing', task, live⟩ := h
  rw [task?_stand, if_pos rfl] at task
  cases task
  exact ⟨⟨n, rfl⟩, live⟩

theorem starting_congr (same : ∀ u, d.task? u = c.task? u) {u : TaskId} (h : d.Starting u) :
    c.Starting u := by
  obtain ⟨n, standing, task, live⟩ := h
  exact ⟨n, standing, same u ▸ task, live⟩

/-- A task is given a new standing, while the turn and the phase may change with it. -/
theorem Orderly.stand (h : Orderly c) (same : ∀ u, d.task? u = c.task? u)
    (next : d.nextTask = c.nextTask) (admitted : Admitted c t job) {next_job : Job}
    {standing : Standing}
    (warned : ∀ clear, next_job = .stop clear → c.stopped = true)
    (same_kind : ∀ n, next_job = .start n → (∀ r, standing ≠ .done r) → ∃ m, job = .start m)
    (turn : ∀ u job w, u ≠ t → c.task? u = some ⟨job, .working w⟩ → job.cycles = true →
      d.holder = some u)
    (own : ∀ w, standing = .working w → next_job.cycles = true → d.holder = some t)
    (started : (∃ n, next_job = .start n) → (∀ r, standing ≠ .done r) →
      d.phase = .probing ∨ d.phase = .stopped)
    (phase : (∃ u, u ≠ t ∧ c.Starting u) → d.phase = .probing ∨ d.phase = .stopped)
    (told : c.stopped = true → d.stopped = true)
    (halted : d.phase = .stopped → d.stopped = true)
    (dead : d.stopped = true → d.phase ≠ .running)
    (late : d.stopped = true → d.phase = .probing → (∀ n w, next_job = .start n →
      standing ≠ .working w) ∧ ∀ u n w, u ≠ t → c.task? u ≠ some ⟨.start n, .working w⟩) :
    Orderly (d.stand t next_job standing) := by
  have other : ∀ u, u ≠ t → (d.stand t next_job standing).task? u = c.task? u := by
    intro u ne
    rw [task?_stand, if_neg ne, same]
  have self : (d.stand t next_job standing).task? t = some ⟨next_job, standing⟩ := by simp
  have start_other : ∀ u, u ≠ t → (d.stand t next_job standing).Starting u → c.Starting u :=
    fun u ne hu => starting_congr same (starting_stand_of_ne ne hu)
  have alone : (d.stand t next_job standing).Starting t → ∀ u, c.Starting u → u = t := by
    intro ht u hu
    obtain ⟨⟨n, eq⟩, live⟩ := starting_stand_self ht
    obtain ⟨m, eq⟩ := same_kind n eq live
    exact admitted.alone m eq u hu
  constructor
  · intro u hu
    have hu : c.nextTask ≤ u := next ▸ hu
    rw [other u fun eq => Nat.not_le_of_lt admitted.known (eq ▸ hu)]
    exact h.fresh u hu
  · intro u clear standing hu
    by_cases ne : u = t
    · subst ne
      rw [self] at hu
      cases hu
      exact told (warned clear rfl)
    · rw [other u ne] at hu
      exact told (h.warned u clear standing hu)
  · intro u job' w hu cycles
    by_cases ne : u = t
    · subst ne
      rw [self] at hu
      cases hu
      exact own w rfl cycles
    · rw [other u ne] at hu
      exact turn u job' w ne hu cycles
  · -- of two starts one would be the task itself, which is alone
    intro u v hu hv
    by_cases nu : u = t
    · by_cases nv : v = t
      · exact nu.trans nv.symm
      · exact absurd (alone (nu ▸ hu) v (start_other v nv hv)) nv
    · by_cases nv : v = t
      · exact absurd (alone (nv ▸ hv) u (start_other u nu hu)) nu
      · exact h.single u v (start_other u nu hu) (start_other v nv hv)
  · intro u hu
    by_cases ne : u = t
    · subst ne
      exact started (starting_stand_self hu).1 (starting_stand_self hu).2
    · exact phase ⟨u, ne, start_other u ne hu⟩
  · exact halted
  · exact dead
  · intro stopped probing u n w hu
    by_cases ne : u = t
    · subst ne
      rw [self] at hu
      cases hu
      exact (late stopped probing).1 n w rfl rfl
    · rw [other u ne] at hu
      exact (late stopped probing).2 u n w ne hu

theorem Orderly.congr (h : Orderly c) (same : ∀ u, d.task? u = c.task? u)
    (next : d.nextTask = c.nextTask) (holder : d.holder = c.holder) (phase : d.phase = c.phase)
    (stopped : d.stopped = c.stopped) : Orderly d := by
  constructor
  · intro u hu
    rw [same]
    exact h.fresh u (next ▸ hu)
  · intro u clear standing hu
    rw [same] at hu
    rw [stopped]
    exact h.warned u clear standing hu
  · intro u job w hu cycles
    rw [same] at hu
    rw [holder]
    exact h.locked u job w hu cycles
  · exact fun u v hu hv => h.single u v (starting_congr same hu) (starting_congr same hv)
  · intro u hu
    rw [phase]
    exact h.probing u (starting_congr same hu)
  · rw [phase, stopped]
    exact h.halted
  · rw [phase, stopped]
    exact h.dead
  · rw [phase, stopped]
    intro stopped probing u n w
    rw [same]
    exact h.late stopped probing u n w

/-- With the turn at a task no other one is in a cycle. -/
theorem Orderly.turn (h : Orderly c) (held : c.holder = some t) (u : TaskId) (job : Job) (w : Work)
    (ne : u ≠ t) (task : c.task? u = some ⟨job, .working w⟩) : ¬ job.cycles = true := by
  intro cycles
  rw [h.locked u job w task cycles] at held
  exact ne (Option.some.inj held)

/-- The standings that leave phase and shutdown as they are. -/
theorem Orderly.stand_kept (h : Orderly c) (same : ∀ u, d.task? u = c.task? u)
    (next : d.nextTask = c.nextTask) (phase : d.phase = c.phase) (stopped : d.stopped = c.stopped)
    (admitted : Admitted c t job) {next_job : Job} {standing : Standing}
    (warned : ∀ clear, next_job = .stop clear → c.stopped = true)
    (same_kind : ∀ n, next_job = .start n → (∀ r, standing ≠ .done r) → ∃ m, job = .start m)
    (turn : ∀ u job w, u ≠ t → c.task? u = some ⟨job, .working w⟩ → job.cycles = true →
      d.holder = some u)
    (own : ∀ w, standing = .working w → (next_job.cycles = true → d.holder = some t) ∧
      (c.stopped = true → c.phase = .probing → ∀ n, next_job ≠ .start n)) :
    Orderly (d.stand t next_job standing) := by
  refine h.stand same next admitted warned same_kind turn (fun w eq => (own w eq).1) ?_ ?_ ?_ ?_
    ?_ ?_
  · rintro ⟨n, eq⟩ live
    obtain ⟨m, eq⟩ := same_kind n eq live
    rw [phase]
    exact admitted.phase m eq
  · rintro ⟨u, _, hu⟩
    rw [phase]
    exact h.probing u hu
  · rw [stopped]
    exact id
  · rw [phase, stopped]
    exact h.halted
  · rw [phase, stopped]
    exact h.dead
  · rw [phase, stopped]
    exact fun hs hp => ⟨fun n w start eq => (own w eq).2 hs hp n start,
      fun u n w _ => h.late hs hp u n w⟩

theorem not_working_done (r : Except Fault Payload) (w : Work) : Standing.done r ≠ .working w := by
  simp

/-- A task that has its turn leaves its work, or one that has not waits for it. A start may
have failed once more. -/
theorem Orderly.idles (h : Orderly c) (same : ∀ u, d.task? u = c.task? u)
    (next : d.nextTask = c.nextTask) (phase : d.phase = c.phase) (stopped : d.stopped = c.stopped)
    (turn : c.holder = some t ∨ d.holder = c.holder) (admitted : Admitted c t job)
    {next_job : Job} (kind : next_job = job ∨ ∃ n m, job = .start n ∧ next_job = .start m)
    {standing : Standing} (idle : ∀ w, standing ≠ .working w) :
    Orderly (d.stand t next_job standing) := by
  refine h.stand_kept same next phase stopped admitted ?_ ?_ ?_ (fun w eq => absurd eq (idle w))
  · rintro clear rfl
    rcases kind with rfl | ⟨_, _, _, eq⟩
    · exact admitted.warned clear rfl
    · cases eq
  · rintro n rfl _
    rcases kind with rfl | ⟨m, _, eq, _⟩
    · exact ⟨n, rfl⟩
    · exact ⟨m, eq⟩
  · intro u other w ne task own
    rcases turn with held | holder
    · exact absurd own (h.turn held u other w ne task)
    · exact holder.trans (h.locked u other w task own)

/-- A number is taken for a new task. -/
theorem Orderly.numbered (h : Orderly c) : Orderly c.numbered where
  fresh u hu := h.fresh u (Nat.le_trans (Nat.le_succ _) hu)
  warned := h.warned
  locked := h.locked
  single := h.single
  probing := h.probing
  halted := h.halted
  dead := h.dead
  late := h.late

theorem admitted_of_known (known : t < c.nextTask)
    (warned : ∀ clear, job = .stop clear → c.stopped = true) (live : ∀ n, job ≠ .start n) :
    Admitted c t job where
  known := known
  warned := warned
  alone n eq := absurd eq (live n)
  phase n eq := absurd eq (live n)

/-- A task that is new, and no start or already over. -/
theorem Orderly.newcomer (h : Orderly c) (known : t < c.nextTask) {standing : Standing}
    (warned : ∀ clear, job = .stop clear → c.stopped = true)
    (quiet : ∀ n, job = .start n → ∃ r, standing = .done r)
    (idle : ∀ w, standing = .working w → job.cycles = false) :
    Orderly (c.stand t job standing) := by
  have admitted : Admitted c t .heartbeat := admitted_of_known known (by simp) (by simp)
  refine h.stand_kept (d := c) (fun _ => rfl) rfl rfl rfl admitted warned ?_
    (fun u other w _ task own => h.locked u other w task own)
    (fun w working => ⟨fun cycles => ?_, fun _ _ n eq => ?_⟩)
  · intro n eq live
    obtain ⟨r, ended⟩ := quiet n eq
    exact absurd ended (live r)
  · rw [idle w working] at cycles
    cases cycles
  · obtain ⟨r, ended⟩ := quiet n eq
    rw [ended] at working
    exact not_working_done r w working

/-- A start that has come to work ends with a background task, and there is no other start. -/
theorem Orderly.ready (h : Orderly c) {n : Nat} (admitted : Admitted c t (.start n))
    (held : c.holder = some t) (going : c.stopped = false) :
    Orderly (c.release.spawnBackground.finish t (.start n) (.ok .nothing)) := by
  have nobody_starts : ∀ u, u ≠ t → ¬ c.Starting u := fun u ne hu =>
    ne (admitted.alone n rfl u hu)
  let runs : Client := { c.release with phase := .running, background := some c.nextTask }
  let last : Client := runs.finish t (.start n) (.ok .nothing)
  have ended : Orderly last := by
    refine h.stand (d := runs) (fun _ => rfl) rfl admitted (fun clear eq => by cases eq)
      (fun m _ _ => ⟨n, rfl⟩) ?_ (fun w eq => absurd eq (not_working_done _ w))
      (fun _ live => absurd rfl (live _)) (fun ⟨u, ne, hu⟩ => absurd hu (nobody_starts u ne))
      id (fun eq => by cases eq) ?_ (fun _ eq => by cases eq)
    · exact fun u other w ne task own => absurd own (h.turn held u other w ne task)
    · intro stopped
      rw [show c.stopped = true from stopped] at going
      cases going
  have rests : Orderly (last.numbered.stand c.nextTask (.background false) .resting) :=
    ended.numbered.newcomer (Nat.lt_succ_self _) (by simp) (fun n eq => by cases eq)
      (fun w eq => by cases eq)
  -- the two tasks are written in the other order
  refine rests.congr (fun u => ?_) rfl rfl rfl rfl
  have other : t ≠ c.nextTask := Nat.ne_of_lt admitted.known
  have held : last.task? u = if u = t then some ⟨.start n, .done (.ok .nothing)⟩ else c.task? u :=
    task?_finish ..
  have spawned : c.release.spawnBackground.task? u =
      if u = c.nextTask then some ⟨.background false, .resting⟩ else c.task? u := task?_stand ..
  rw [task?_finish, task?_stand, spawned, show last.numbered.task? u = last.task? u from rfl, held]
  by_cases eq : u = t
  · rw [if_pos eq, if_neg (eq ▸ other), if_pos eq]
  · rw [if_neg eq, if_neg eq]

theorem Orderly.givesUp (h : Orderly c) {n m : Nat} (admitted : Admitted c t (.start n))
    (held : c.holder = some t) (fatal : List Fault) (result : Except Fault Payload) :
    Orderly ({ c.release with fatal, phase := .created }.finish t (.start m) result) := by
  have nobody_starts : ∀ u, u ≠ t → ¬ c.Starting u := fun u ne hu =>
    ne (admitted.alone n rfl u hu)
  refine h.stand (d := { c.release with fatal, phase := .created }) (fun _ => rfl) rfl admitted
    (fun clear eq => by cases eq) (fun _ _ _ => ⟨n, rfl⟩) ?_
    (fun w eq => absurd eq (not_working_done _ w)) (fun _ live => absurd rfl (live _))
    (fun ⟨u, ne, hu⟩ => absurd hu (nobody_starts u ne)) id (fun eq => by cases eq)
    (fun _ eq => by cases eq) (fun _ eq => by cases eq)
  exact fun u other w ne task own => absurd own (h.turn held u other w ne task)

theorem Orderly.ending {result : Except Fault Payload} {c' : Client} (h : Orderly c)
    (admitted : Admitted c t job) (held : job.cycles = true → c.holder = some t)
    (sound : c.stopped = true → c.phase = .probing → ∀ n payload, job = .start n →
      result ≠ .ok payload) (e : Ending c t job result c') : Orderly c' := by
  cases e with
  | kept clear result => exact h
  | answered idle result =>
    exact h.idles (d := c) (fun _ => rfl) rfl rfl rfl (.inr rfl) admitted (.inl rfl)
      (not_working_done _)
  | finishes cycles _ outcome fatal _ =>
    exact h.idles (d := { c.release with fatal }) (fun _ => rfl) rfl rfl rfl (.inl (held cycles))
      admitted (.inl rfl) (not_working_done _)
  | rests _ fatal next kinds =>
    rcases kinds with ⟨rfl, rfl⟩ | ⟨n, _, rfl, rfl, _⟩
    · exact h.idles (d := { c.release with fatal }) (fun _ => rfl) rfl rfl rfl (.inl (held rfl))
        admitted (.inl rfl) (by simp)
    · exact h.idles (d := { c.release with fatal }) (fun _ => rfl) rfl rfl rfl (.inl (held rfl))
        admitted (.inr ⟨n, _, rfl, rfl⟩) (by simp)
  | givesUp n fault fatal _ => exact h.givesUp admitted (held rfl) fatal _
  | ready n payload probing =>
    refine h.ready admitted (held rfl) ?_
    cases stopped : c.stopped with
    | false => rfl
    | true => exact absurd rfl (sound stopped probing n payload rfl)

theorem Orderly.entry {c' : Client} (h : Orderly c) (admitted : Admitted c t job)
    (held : c.holder = some t) (e : Entry c t job c') : Orderly c' := by
  cases e with
  | stops clear directory estimates _ _ =>
    have ended : Orderly (c.release.finish t (.stop clear) (.ok .nothing)) :=
      h.idles (d := c.release) (fun _ => rfl) rfl rfl rfl (.inl held) admitted (.inl rfl)
        (not_working_done _)
    exact ended.congr (fun _ => rfl) rfl rfl rfl rfl
  | refused _ _ ends =>
    exact h.ending admitted (fun _ => held) (fun _ _ _ _ _ eq => by cases eq) ends
  | begins _ going =>
    refine h.stand_kept (d := c) (fun _ => rfl) rfl rfl rfl admitted admitted.warned
      (fun n eq _ => ⟨n, eq⟩) (fun u other w _ task own => h.locked u other w task own)
      (fun w _ => ⟨fun _ => held, ?_⟩)
    intro stopped
    rw [going] at stopped
    cases stopped

theorem Orderly.turns (h : Orderly c) (free : c.holder = none) (t : TaskId) :
    Orderly { c with holder := some t } :=
  { h with
    locked := fun u other w task own => by
      have held := h.locked u other w task own
      rw [free] at held
      cases held }

theorem Orderly.queueing {c' : Client} (h : Orderly c) (admitted : Admitted c t job)
    (e : Queueing c t job c') : Orderly c' := by
  cases e with
  | waits u held =>
    exact h.idles (d := { c with waiting := c.waiting ++ [t] }) (fun _ => rfl) rfl rfl rfl
      (.inr rfl) admitted (.inl rfl) (by simp)
  | turns free entry =>
    exact (h.turns free t).entry
      ⟨admitted.known, admitted.warned, admitted.alone, admitted.phase⟩ rfl entry

theorem Orderly.resuming {c' : Client} (h : Orderly c) (e : Resuming c t c') : Orderly c' := by
  cases e with
  | enters task turn entry => exact h.entry (h.admitted task (by simp)) turn entry
  | ends task =>
    exact h.idles (d := c) (fun _ => rfl) rfl rfl rfl (.inr rfl) (h.admitted task (by simp))
      (.inl rfl) (not_working_done _)
  | rested task queueing => exact h.queueing (h.admitted task (by simp)) queueing
  | joined task _ queueing => exact h.queueing (h.admitted task (by simp)) queueing

/-- A task at work stays at it. -/
theorem Orderly.goes_on (h : Orderly c) {w w' : Work} (task : c.task? t = some ⟨job, .working w⟩)
    (same : ∀ u, d.task? u = c.task? u) (next : d.nextTask = c.nextTask)
    (holder : d.holder = c.holder) (phase : d.phase = c.phase) (stopped : d.stopped = c.stopped) :
    Orderly (d.stand t job (.working w')) := by
  have admitted := h.admitted task (by simp)
  refine h.stand_kept same next phase stopped admitted admitted.warned (fun n eq _ => ⟨n, eq⟩)
    (fun u other w _ task own => ?_) (fun v _ => ⟨fun cycles => ?_, ?_⟩)
  · rw [holder]
    exact h.locked u other w task own
  · rw [holder]
    exact h.locked t job w task cycles
  · intro hs hp n eq
    exact h.late hs hp t n w (eq ▸ task)

theorem Orderly.dialling {q : Query} {c' : Client} (h : Orderly c) (e : Dialling c t q c') :
    Orderly c' := by
  cases e with
  | made task estimates s => exact h.goes_on task (fun _ => rfl) rfl rfl rfl rfl

theorem Orderly.answering {q : Query} {w : Work} {s : Sending}
    {outcome : Except Fault (MetaReply q.Value)} {c' : Client} (h : Orderly c)
    (calling : c.Calling t q job w s) (e : Answering c t q job w outcome c') : Orderly c' := by
  have task := calling.task
  have admitted := h.admitted task (by simp)
  have ends : ∀ {d : Client} {result c'}, Orderly d → Alike c d → Ending d t job result c' →
      Orderly c' := by
    intro d result c' hd like ending
    have same : d.task? t = c.task? t := by rw [task?, like.tasks, task?]
    refine hd.ending (hd.admitted (same.trans task) (by simp))
      (hd.locked t job w (same.trans task)) ?_ ending
    intro stopped probing n payload eq _
    exact hd.late stopped probing t n w (eq ▸ same.trans task)
  cases e with
  | again estimates s => exact h.goes_on task (fun _ => rfl) rfl rfl rfl rfl
  | pauses estimates s => exact h.goes_on task (fun _ => rfl) rfl rfl rfl rfl
  | fails estimates fault ending =>
    exact ends (d := { c with estimates }) (h.congr (fun _ => rfl) rfl rfl rfl rfl)
      (by constructor <;> rfl) ending
  | advances estimates leader v advancing =>
    have like := advancing.alike
    exact h.goes_on task (fun u => by rw [task?, like.tasks, task?]) like.next like.holder
      like.phase like.stopped
  | ends estimates leader v advancing ending =>
    have like := advancing.alike
    have like : Alike c _ := ⟨like.options, like.listening, like.tasks, like.next, like.holder,
      like.waiting, like.phase, like.stopped, like.background, like.fatal⟩
    exact ends (h.congr (fun u => by rw [task?, like.tasks, task?]) like.next like.holder
      like.phase like.stopped) like ending

/-- Nobody can be at a start of a client that is at none. -/
theorem Orderly.nobody_starts (h : Orderly c) (created : c.phase = .created) (u : TaskId) :
    ¬ c.Starting u := by
  intro hu
  rcases h.probing u hu with eq | eq
  · rw [created] at eq
    cases eq
  · rw [created] at eq
    cases eq

theorem Orderly.halting (h : Orderly c) : Orderly c.halting where
  fresh := h.numbered.fresh
  warned _ _ _ _ := rfl
  locked := h.locked
  single := h.single
  probing _ _ := .inr rfl
  halted _ := rfl
  dead _ eq := by cases eq
  late _ eq := by cases eq

theorem Orderly.tellBackground (h : Orderly c) (b : TaskId) : Orderly (c.tellBackground b) := by
  rcases c.tellBackground_eq b with eq | ⟨told, standing, task, eq⟩
  · rwa [eq]
  · rw [eq]
    have admitted : Admitted c b (.background told) :=
      admitted_of_known (h.known task) (by simp) (by simp)
    refine h.stand_kept (d := c) (fun _ => rfl) rfl rfl rfl admitted (by simp)
      (fun n eq _ => by cases eq)
      (fun u other w _ task own => h.locked u other w task own) (fun w working => ?_)
    subst working
    exact ⟨fun _ => h.locked b _ w task rfl, fun _ _ _ => by simp⟩

/-- A start of a client that is at none has the field to itself. -/
theorem Orderly.probes (h : Orderly c) (created : c.phase = .created) :
    Orderly { c with phase := .probing } where
  fresh := h.fresh
  warned := h.warned
  locked := h.locked
  single := h.single
  probing _ _ := .inl rfl
  halted eq := by cases eq
  dead _ eq := by cases eq
  late _ _ u n w task := h.nobody_starts created u ⟨n, .working w, task, by simp⟩

theorem Orderly.beginning {op : Operation} {c' : Client} (h : Orderly c)
    (e : Beginning c op c') : Orderly c' := by
  have numbered := h.numbered
  have known : c.nextTask < c.numbered.nextTask := Nat.lt_succ_self _
  have queues : ∀ {job}, (∀ clear, job ≠ .stop clear) → (∀ n, job ≠ .start n) →
      Queueing c.numbered c.nextTask job c' → Orderly c' := by
    intro job live other queueing
    exact numbered.queueing
      (admitted_of_known known (fun clear eq => absurd eq (live clear)) other) queueing
  have answered : ∀ job result, (∀ clear, job ≠ .stop clear) →
      Orderly (c.numbered.finish c.nextTask job result) := by
    intro job result live
    exact numbered.newcomer known (fun clear eq => absurd eq (live clear))
      (fun _ _ => ⟨result, rfl⟩) (fun w eq => absurd eq (not_working_done _ w))
  cases e with
  | start created queueing =>
    have nobody := h.nobody_starts created
    exact (numbered.probes created).queueing
      ⟨known, by simp, fun _ _ u hu => absurd hu (nobody u), fun _ _ => .inl rfl⟩ queueing
  | declined result _ _ _ => exact answered _ _ (by simp)
  | joins clear b _ =>
    have told := h.halting.tellBackground b
    obtain ⟨tasks, eq⟩ := c.halting.tellBackground_tasks b
    rw [eq] at told ⊢
    exact told.newcomer known (fun _ _ => rfl) (fun n eq => by cases eq) (fun w eq => by cases eq)
  | stop clear _ queueing =>
    exact h.halting.queueing (admitted_of_known known (fun _ _ => rfl) (by simp)) queueing
  | ignored => exact answered _ _ (by simp)
  | refresh queueing => exact queues (by simp) (by simp) queueing
  | loadData queueing => exact queues (by simp) (by simp) queueing
  | loadConfig queueing => exact queues (by simp) (by simp) queueing
  | heartbeat =>
    exact numbered.newcomer known (by simp) (fun n eq => by cases eq) (fun _ _ => rfl)
  | ask q request =>
    exact numbered.newcomer known (by simp) (fun n eq => by cases eq) (fun _ _ => rfl)

theorem step_orderly (h : Orderly c) (e : Event) : Orderly (c.step e) := by
  have move := c.step_move e
  generalize c.step e = c' at move
  cases move with
  | nothing => exact h
  | begins beginning => exact h.beginning beginning
  | calls dialling => exact h.dialling dialling
  | wakes dialling => exact h.dialling dialling
  | resumes resuming => exact h.resuming resuming
  | answers calling answering => exact h.answering calling answering

theorem create_orderly {options : Options} {path : String} {listening : Bool} {choice : Nat}
    {disk : FileTree} (h : create options path listening choice disk = .ok c) : Orderly c := by
  have new := create_pristine h
  have nobody : ∀ u, ¬ c.Starting u := by
    rintro u ⟨n, standing, task, _⟩
    rw [new.tasks] at task
    cases task
  refine ⟨fun u _ => new.tasks u, ?_, ?_, fun u _ hu => absurd hu (nobody u),
    fun u hu => absurd hu (nobody u), ?_, ?_, fun _ _ u n w task => ?_⟩
  · intro u clear standing task
    rw [new.tasks] at task
    cases task
  · intro u job w task
    rw [new.tasks] at task
    cases task
  · rw [new.phase]
    intro eq
    cases eq
  · rw [new.stopped]
    intro eq
    cases eq
  · rw [new.tasks] at task
    cases task

theorem run_orderly (h : Orderly c) (events : List Event) : Orderly (c.run events) :=
  run_keeps (P := Orderly) (fun _ e h => step_orderly h e) h events

end ClusterClient.Client
