import ClusterClient.Proofs.Client.Standings
/-!
The line in which tasks wait for their turn. The one that has the turn may be at work, and all
others wait; nobody is in line twice, and nobody is left in line when nobody has the turn.
-/
namespace ClusterClient.Client

variable {c d : Client} {t u : TaskId} {job : Job} {w : Work} {q : Query}

/-- The task waits for its turn. -/
def Queued (c : Client) (t : TaskId) : Prop := ∃ job, c.task? t = some ⟨job, .queued⟩

/-- The task is at work in a cycle. -/
def Cycles (c : Client) (t : TaskId) : Prop :=
  ∃ job w, c.task? t = some ⟨job, .working w⟩ ∧ job.cycles = true

/-- The task is in a cycle, or waits to be. -/
def Due (c : Client) (t : TaskId) : Prop := c.Queued t ∨ c.Cycles t

structure Lined (c : Client) : Prop where
  waits : ∀ u ∈ c.waiting, c.Queued u
  turn : ∀ u, c.holder = some u → c.Due u
  once : (c.holder.toList ++ c.waiting).Nodup
  free : c.holder = none → c.waiting = []

theorem Due.known (h : c.Due t) (orderly : Orderly c) : t < c.nextTask := by
  rcases h with ⟨_, task⟩ | ⟨_, _, task, _⟩
  · exact orderly.known task
  · exact orderly.known task

theorem not_due_of_task {standing : Standing} (task : c.task? t = some ⟨job, standing⟩)
    (waits : standing ≠ .queued) (idle : ∀ w, standing ≠ .working w) : ¬ c.Due t := by
  rintro (⟨_, queued⟩ | ⟨_, w, working, _⟩)
  · cases task.symm.trans queued
    exact waits rfl
  · cases task.symm.trans working
    exact idle w rfl

theorem Queued.not_working (h : c.Queued t) : ¬ c.Working t := by
  obtain ⟨_, queued⟩ := h
  rintro ⟨_, _, working⟩
  cases queued.symm.trans working

theorem Lined.not_waiting (h : Lined c) (held : c.holder = some t) : t ∉ c.waiting := by
  have once := h.once
  rw [held] at once
  exact (List.nodup_cons.mp once).1

/-- What a step does to the line, by what it does to the place of one task in it. -/
inductive Lines (c d : Client) (t : TaskId) : Prop
  | keeps (holder : d.holder = c.holder) (waiting : d.waiting = c.waiting)
      (waits : t ∈ c.waiting → d.Queued t) (turn : c.holder = some t → d.Due t)
  | joins (idle : ¬ c.Due t) (held : c.holder ≠ none) (holder : d.holder = c.holder)
      (waiting : d.waiting = c.waiting ++ [t]) (queued : d.Queued t)
  | takes (free : c.holder = none) (holder : d.holder = some t) (waiting : d.waiting = c.waiting)
      (cycles : d.Cycles t)
  | leaves (turn : c.holder = none ∨ c.holder = some t) (holder : d.holder = c.waiting.head?)
      (waiting : d.waiting = c.waiting.tail)

/-- The other tasks in line wait or work as before. -/
structure InPlace (c d : Client) (t : TaskId) : Prop where
  queued : ∀ u, u ≠ t → c.Queued u → d.Queued u
  cycles : ∀ u, u ≠ t → c.Cycles u → d.Cycles u

theorem InPlace.due (h : InPlace c d t) (ne : u ≠ t) (due : c.Due u) : d.Due u :=
  due.imp (h.queued u ne) (h.cycles u ne)

theorem Lined.keeps (lined : Lined c) (others : InPlace c d t) (holder : d.holder = c.holder)
    (waiting : d.waiting = c.waiting) (waits : t ∈ c.waiting → d.Queued t)
    (turn : c.holder = some t → d.Due t) : Lined d := by
  refine ⟨fun u here => ?_, fun u held => ?_, ?_, ?_⟩
  · rw [waiting] at here
    by_cases eq : u = t
    · exact eq ▸ waits (eq ▸ here)
    · exact others.queued u eq (lined.waits u here)
  · rw [holder] at held
    by_cases eq : u = t
    · exact eq ▸ turn (eq ▸ held)
    · exact others.due eq (lined.turn u held)
  · rw [holder, waiting]
    exact lined.once
  · rw [holder, waiting]
    exact lined.free

theorem Lined.joins (lined : Lined c) (others : InPlace c d t) (idle : ¬ c.Due t)
    (held : c.holder ≠ none) (holder : d.holder = c.holder)
    (waiting : d.waiting = c.waiting ++ [t]) (queued : d.Queued t) : Lined d := by
  have apart : ∀ u, c.Due u → u ≠ t := fun u due eq => idle (eq ▸ due)
  refine ⟨fun u here => ?_, fun u turn => ?_, ?_, fun free => absurd (holder ▸ free) held⟩
  · rw [waiting] at here
    rcases List.mem_append.mp here with here | here
    · exact others.queued u (apart u (.inl (lined.waits u here))) (lined.waits u here)
    · exact List.mem_singleton.mp here ▸ queued
  · rw [holder] at turn
    exact others.due (apart u (lined.turn u turn)) (lined.turn u turn)
  · rw [holder, waiting, ← List.append_assoc, List.nodup_append]
    refine ⟨lined.once, by simp, fun u here v last => ?_⟩
    rw [List.mem_singleton.mp last]
    rcases List.mem_append.mp here with here | here
    · exact apart u (lined.turn u (Option.mem_toList.mp here))
    · exact apart u (.inl (lined.waits u here))

theorem Lined.takes (lined : Lined c) (free : c.holder = none) (holder : d.holder = some t)
    (waiting : d.waiting = c.waiting) (cycles : d.Cycles t) : Lined d := by
  have nobody := waiting.trans (lined.free free)
  refine ⟨by simp [nobody], fun u turn => ?_, ?_, fun none => ?_⟩
  · cases holder.symm.trans turn
    exact .inr cycles
  · simp [holder, nobody]
  · cases holder.symm.trans none

/-- The first of those that wait has the turn next, and all of them still wait. -/
theorem Lined.leaves (lined : Lined c) (others : InPlace c d t)
    (turn : c.holder = none ∨ c.holder = some t) (holder : d.holder = c.waiting.head?)
    (waiting : d.waiting = c.waiting.tail) : Lined d := by
  have apart : ∀ u ∈ c.waiting, u ≠ t := by
    rintro u here rfl
    rcases turn with none | own
    · rw [lined.free none] at here
      cases here
    · exact lined.not_waiting own here
  have stays : ∀ u ∈ c.waiting, d.Queued u := fun u here =>
    others.queued u (apart u here) (lined.waits u here)
  have same : d.holder.toList ++ d.waiting = c.waiting := by
    rw [holder, waiting]
    cases c.waiting <;> rfl
  refine ⟨fun u here => ?_, fun u first => .inl (stays u ?_), ?_, fun none => ?_⟩
  · rw [waiting] at here
    exact stays u (List.mem_of_mem_tail here)
  · exact List.mem_of_head? (holder.symm.trans first)
  · rw [same]
    exact (List.nodup_append.mp lined.once).2.1
  · rw [waiting, List.head?_eq_none_iff.mp (holder.symm.trans none)]
    rfl

theorem Lines.lined (h : Lines c d t) (lined : Lined c) (others : InPlace c d t) : Lined d := by
  cases h with
  | keeps holder waiting waits turn => exact lined.keeps others holder waiting waits turn
  | joins idle held holder waiting queued =>
    exact lined.joins others idle held holder waiting queued
  | takes free holder waiting cycles => exact lined.takes free holder waiting cycles
  | leaves turn holder waiting => exact lined.leaves others turn holder waiting

/-- The step can as well be one of a client with the same line. -/
theorem Lines.before {b : Client} (h : Lines c d t) (holder : c.holder = b.holder)
    (waiting : c.waiting = b.waiting) (tasks : c.task? t = b.task? t) : Lines b d t := by
  have due : b.Due t → c.Due t := by
    simp only [Due, Queued, Cycles, tasks, imp_self]
  cases h with
  | keeps holder' waiting' waits turn =>
    exact .keeps (holder'.trans holder) (waiting'.trans waiting) (waiting ▸ waits) (holder ▸ turn)
  | joins idle held holder' waiting' queued =>
    exact .joins (mt due idle) (holder ▸ held) (holder'.trans holder) (waiting ▸ waiting') queued
  | takes free holder' waiting' cycles =>
    exact .takes (holder ▸ free) holder' (waiting'.trans waiting) cycles
  | leaves turn holder' waiting' =>
    exact .leaves (holder ▸ turn) (waiting ▸ holder') (waiting ▸ waiting')

/-- The end of a cycle hands the turn on. -/
theorem Ending.hands_on {result : Except Fault Payload} (h : Ending c t job result d)
    (live : ∀ clear, job ≠ .stop clear) (cycles : job.cycles = true) :
    d.holder = c.waiting.head? ∧ d.waiting = c.waiting.tail := by
  cases h with
  | kept clear _ => exact absurd rfl (live clear)
  | answered idle _ => cases cycles.symm.trans idle
  | _ => exact ⟨rfl, rfl⟩

theorem Ending.holds_on {result : Except Fault Payload} (h : Ending c t job result d)
    (idle : job.cycles = false) : d.holder = c.holder ∧ d.waiting = c.waiting := by
  cases h with
  | finishes cycles _ _ _ _ _ => cases cycles.symm.trans idle
  | rests _ _ _ kinds => rcases kinds with ⟨rfl, _⟩ | ⟨_, _, rfl, _⟩ <;> cases idle
  | ready _ _ _ => cases idle
  | givesUp _ _ _ _ => cases idle
  | _ => exact ⟨rfl, rfl⟩

theorem cycles_stand (cycles : job.cycles = true) : (d.stand t job (.working w)).Cycles t :=
  ⟨job, w, (d.task?_stand ..).trans (if_pos rfl), cycles⟩

/-- A task that has its turn gets to work, or hands the turn on at once. -/
theorem Entry.lines (h : Entry c t job d) (cycles : job.cycles = true) :
    d.holder = c.holder ∧ d.waiting = c.waiting ∧ d.Cycles t ∨
      d.holder = c.waiting.head? ∧ d.waiting = c.waiting.tail := by
  cases h with
  | stops _ _ _ _ _ => exact .inr ⟨rfl, rfl⟩
  | refused live _ ends => exact .inr (ends.hands_on live cycles)
  | begins _ _ => exact .inl ⟨rfl, rfl, cycles_stand cycles⟩

theorem Queueing.lines (h : Queueing c t job d) (cycles : job.cycles = true) (idle : ¬ c.Due t) :
    Lines c d t := by
  cases h with
  | waits u held =>
    exact .joins idle (by simp [held]) rfl rfl ⟨job, (task?_stand ..).trans (if_pos rfl)⟩
  | turns free entry =>
    rcases entry.lines cycles with ⟨holder, waiting, own⟩ | ⟨holder, waiting⟩
    · exact .takes free holder waiting own
    · exact .leaves (.inl free) holder waiting

/-- A task that is not in line is no matter of it. -/
theorem lines_of_not_due (lined : Lined c) (holder : d.holder = c.holder)
    (waiting : d.waiting = c.waiting) (idle : ¬ c.Due t) : Lines c d t :=
  .keeps holder waiting (fun here => absurd (.inl (lined.waits t here)) idle)
    fun held => absurd (lined.turn t held) idle

/-- A task that goes on with its work keeps its turn, if its work is a cycle. -/
theorem lines_of_working (lined : Lined c) (holder : d.holder = c.holder)
    (waiting : d.waiting = c.waiting) {w' : Work} (before : c.task? t = some ⟨job, .working w⟩)
    (after : d.task? t = some ⟨job, .working w'⟩) : Lines c d t := by
  refine .keeps holder waiting (fun here => ?_) fun held => ?_
  · exact absurd ⟨_, _, before⟩ (lined.waits t here).not_working
  · rcases lined.turn t held with queued | ⟨_, _, task, cycles⟩
    · exact absurd ⟨_, _, before⟩ queued.not_working
    · cases before.symm.trans task
      exact .inr ⟨_, _, after, cycles⟩

theorem Dialling.lines (h : Dialling c t q d) (lined : Lined c) : Lines c d t := by
  cases h with
  | made task estimates s _ _ =>
    exact lines_of_working lined rfl rfl task ((task?_stand ..).trans (if_pos rfl))

theorem Resuming.lines (h : Resuming c t d) (regular : Regular c) (lined : Lined c) :
    Lines c d t := by
  cases h with
  | enters task turn entry =>
    rcases entry.lines (regular.apt _ _ _ task) with ⟨holder, waiting, own⟩ | ⟨holder, waiting⟩
    · exact .keeps holder waiting (fun here => absurd here (lined.not_waiting turn))
        fun _ => .inr own
    · exact .leaves (.inr turn) holder waiting
  | ends task => exact lines_of_not_due lined rfl rfl (not_due_of_task task (by simp) (by simp))
  | rested task queueing =>
    exact queueing.lines (regular.apt _ _ _ task) (not_due_of_task task (by simp) (by simp))
  | joined task _ queueing =>
    exact queueing.lines (regular.apt _ _ _ task) (not_due_of_task task (by simp) (by simp))

theorem Answering.lines {outcome : Except Fault (MetaReply q.Value)}
    (h : Answering c t q job w outcome d) (task : c.task? t = some ⟨job, .working w⟩)
    (regular : Regular c) (lined : Lined c) : Lines c d t := by
  have ended : ∀ {b : Client} {result}, Alike c b → Ending b t job result d → Lines c d t := by
    intro b result like ending
    cases cycles : job.cycles with
    | true =>
      obtain ⟨holder, waiting⟩ := ending.hands_on (regular.apt _ _ _ task).worker cycles
      rw [like.waiting] at holder waiting
      exact .leaves (.inr (regular.locked t job w task cycles)) holder waiting
    | false =>
      obtain ⟨holder, waiting⟩ := ending.holds_on cycles
      refine lines_of_not_due lined (holder.trans like.holder) (waiting.trans like.waiting) ?_
      rintro (queued | ⟨_, _, working, cycles'⟩)
      · exact queued.not_working ⟨_, _, task⟩
      · cases task.symm.trans working
        cases cycles.symm.trans cycles'
  cases h with
  | again _ _ _ => exact lines_of_working lined rfl rfl task ((task?_stand ..).trans (if_pos rfl))
  | pauses _ _ _ =>
    exact lines_of_working lined rfl rfl task ((task?_stand ..).trans (if_pos rfl))
  | fails estimates _ ending _ => exact ended (by constructor <;> rfl) ending
  | advances _ _ _ advancing _ =>
    have like := advancing.alike
    exact lines_of_working lined like.holder like.waiting task
      ((task?_stand ..).trans (if_pos rfl))
  | ends _ _ _ advancing ending _ =>
    have like := advancing.alike
    exact ended ⟨like.options, like.listening, like.tasks, like.next, like.holder, like.waiting,
      like.phase, like.stopped, like.background, like.fatal⟩ ending

theorem Beginning.lines {op : Operation} (h : Beginning c op d) (regular : Regular c)
    (lined : Lined c) : Lines c d c.nextTask := by
  have idle : ¬ c.Due c.nextTask := fun due =>
    Nat.lt_irrefl _ (due.known regular.toOrderly)
  cases h with
  | start _ queueing => exact (queueing.lines rfl idle).before rfl rfl rfl
  | joins clear b _ =>
    obtain ⟨tasks, eq⟩ := c.halting.tellBackground_tasks b
    exact lines_of_not_due lined (by rw [eq]; rfl) (by rw [eq]; rfl) idle
  | stop clear _ queueing => exact (queueing.lines rfl idle).before rfl rfl rfl
  | refresh queueing => exact (queueing.lines rfl idle).before rfl rfl rfl
  | loadData queueing => exact (queueing.lines rfl idle).before rfl rfl rfl
  | loadConfig queueing => exact (queueing.lines rfl idle).before rfl rfl rfl
  | _ => exact lines_of_not_due lined rfl rfl idle

theorem step_lines (regular : Regular c) (lined : Lined c) (e : Event) :
    Lines c (c.step e) (c.subject e) := by
  have move := c.step_move e
  generalize c.step e = d at move
  cases move with
  | nothing => exact .keeps rfl rfl (lined.waits _) (lined.turn _)
  | begins beginning => exact beginning.lines regular lined
  | calls dialling => exact dialling.lines lined
  | wakes dialling => exact dialling.lines lined
  | resumes resuming => exact resuming.lines regular lined
  | answers calling answering => exact answering.lines calling.task regular lined

theorem Beside.queued (h : Beside c d u) (orderly : Orderly c) (queued : c.Queued u) :
    d.Queued u := by
  obtain ⟨job, task⟩ := queued
  cases h with
  | same same => exact ⟨job, same.trans task⟩
  | spawned new _ _ => exact absurd (orderly.known task) (new ▸ Nat.lt_irrefl _)
  | told _ _ before after =>
    cases before.symm.trans task
    exact ⟨_, after⟩

theorem Beside.cycles (h : Beside c d u) (orderly : Orderly c) (cycles : c.Cycles u) :
    d.Cycles u := by
  obtain ⟨job, w, task, cycles⟩ := cycles
  cases h with
  | same same => exact ⟨job, w, same.trans task, cycles⟩
  | spawned new _ _ => exact absurd (orderly.known task) (new ▸ Nat.lt_irrefl _)
  | told _ _ before after =>
    cases before.symm.trans task
    exact ⟨_, w, after, rfl⟩

theorem step_lined (regular : Regular c) (lined : Lined c) (e : Event) : Lined (c.step e) :=
  (step_lines regular lined e).lined lined
    ⟨fun _ ne => (c.step_beside e ne).queued regular.toOrderly,
      fun _ ne => (c.step_beside e ne).cycles regular.toOrderly⟩

theorem run_lined (regular : Regular c) (lined : Lined c) (events : List Event) :
    Lined (c.run events) :=
  regular.run_keeps (P := Lined) (fun _ e regular lined => step_lined regular lined e) lined events

theorem create_lined {options : Options} {path : String} {listening : Bool} {choice : Nat}
    {disk : FileTree} (created : create options path listening choice disk = .ok c) : Lined c := by
  have nobody := (create_pristine created).waiting
  have free := (create_pristine created).holder
  exact ⟨by simp [nobody], by simp [free], by simp [nobody, free], fun _ => nobody⟩

end ClusterClient.Client
