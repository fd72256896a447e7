import ClusterClient.Proofs.Client.Standings
import ClusterClient.Simulation.Bench
import Mathlib.Data.List.Basic
/-!
How long a start sleeps between two probes, when its client is alone on the bench: it is resumed
by its own alarm, and the clock has then gone on by the retry interval.
-/
namespace ClusterClient.Simulation.Bench

open Client

variable {b b' : Bench} {t : TaskId} {q : Query} {w : Work} {job : Job}

/-- The alarms that end the rests of a task, set and not gone off. -/
def alarms (b : Bench) (t : TaskId) : List Timer := b.timers.filter fun u => u.alarm == .task t

/-- The alarms of a task that have gone off, and were not found yet. -/
def rung (b : Bench) (t : TaskId) : List (Alarm × Due) := b.fired.filter fun e => e.1 == .task t

/-- How long a rest of a job is. -/
def restOf (c : Client) : Job → Nat
  | .background _ => c.options.heartbeatInterval
  | _ => c.options.retryInterval

theorem restOf_start (c : Client) (n : Nat) :
    restOf c (.start n) = c.options.retryInterval :=
  rfl

/-- The alarms of the task are what they were. -/
structure SameNaps (b b' : Bench) (u : TaskId) : Prop where
  alarms : b'.alarms u = b.alarms u
  rung : b'.rung u = b.rung u

/-- What the turn of a task does to the client, and to the alarms that end rests. -/
inductive Acted (b b' : Bench) (t : TaskId) : Prop
  | steps (e : Event) (own : b.client.subject e = t) (moved : b'.client = b.client.step e)
      (awake : ∀ job, b.client.task? t = some ⟨job, .resting⟩ → ∃ told, job = .background told)
      (same : ∀ u, SameNaps b b' u)
  | waits (still : b'.client = b.client) (same : ∀ u, SameNaps b b' u)
  | sets (job : Job) (task : b.client.task? t = some ⟨job, .resting⟩)
      (still : b'.client = b.client) (others : ∀ u, u ≠ t → SameNaps b b' u)
      (alarms : b'.alarms t = [⟨b.now + min (restOf b.client job) longest, .task t, .ready⟩])
      (unset : b.alarms t = []) (quiet : b.rung t = []) (rung : b'.rung t = [])
  | wakes (job : Job) (task : b.client.task? t = some ⟨job, .resting⟩)
      (moved : b'.client = b.client.resume t) (others : ∀ u, u ≠ t → SameNaps b b' u)
      (alarms : b'.alarms t = b.alarms t) (rung : b'.rung t = [])
      (due : b.rung t ≠ [] ∨ b.alarms t = [] ∧ restOf b.client job = 0)

/-- The clock and the other clients are left alone. -/
structure Turn (b b' : Bench) (t : TaskId) : Prop where
  now : b'.now = b.now
  others : b'.others = b.others
  acted : Acted b b' t

theorem filter_insertTimer {p : Timer → Bool} {u : Timer} (h : p u = false) (l : List Timer) :
    (insertTimer u l).filter p = l.filter p := by
  induction l with
  | nil => simp [insertTimer, h]
  | cons v l ih =>
    rw [insertTimer]
    split
    · simp [h]
    · rw [List.filter_cons, List.filter_cons, ih]

theorem filter_insertTimer_of_none {p : Timer → Bool} {u : Timer} (h : p u = true)
    {l : List Timer} (none : l.filter p = []) : (insertTimer u l).filter p = [u] := by
  induction l with
  | nil => simp [insertTimer, h]
  | cons v l ih =>
    have apart : p v = false := by
      cases pv : p v with
      | false => rfl
      | true => simp [pv] at none
    have none : l.filter p = [] := by simpa [apart] using none
    rw [insertTimer]
    split
    · simp [h, apart, none]
    · simp [apart, ih none]

theorem lookup_none_iff (l : List (Alarm × Due)) (a : Alarm) :
    l.lookup a = none ↔ l.filter (fun e => e.1 == a) = [] := by
  induction l with
  | nil => simp
  | cons e l ih =>
    obtain ⟨a', due⟩ := e
    by_cases eq : a = a'
    · subst eq
      simp
    · have ne : (a == a') = false := by simpa using eq
      have ne' : (a' == a) = false := by simpa using Ne.symm eq
      rw [List.lookup_cons, ne, List.filter_cons, ne']
      exact ih

theorem sameNaps_of_eq (timers : b'.timers = b.timers) (fired : b'.fired = b.fired)
    (u : TaskId) : SameNaps b b' u :=
  ⟨by rw [alarms, timers, alarms], by rw [rung, fired, rung]⟩

theorem sameNaps_refl (u : TaskId) : SameNaps b b u := ⟨rfl, rfl⟩

theorem SameNaps.trans {a : Bench} {u : TaskId} (h : SameNaps a b u)
    (h' : SameNaps b b' u) : SameNaps a b' u :=
  ⟨h'.alarms.trans h.alarms, h'.rung.trans h.rung⟩

theorem setTimer_alarms (b : Bench) (after : Nat) {alarm : Alarm} (due : Due) {u : TaskId}
    (ne : alarm ≠ .task u) : (b.setTimer after alarm due).alarms u = b.alarms u :=
  filter_insertTimer (by simpa using ne) _

/-- What was found has gone off, and will not be found again. -/
theorem takeFired_some {alarm : Alarm} {due : Due} (h : b.takeFired alarm = some (due, b')) :
    b.fired.lookup alarm = some due ∧
      b' = { b with fired := b.fired.filter fun e => e.1 != alarm } := by
  unfold takeFired at h
  split at h
  · rename_i found
    cases h
    exact ⟨found, rfl⟩
  · cases h

theorem takeFired_sameNaps {alarm : Alarm} {due : Due}
    (h : b.takeFired alarm = some (due, b')) {u : TaskId} (ne : alarm ≠ .task u) :
    SameNaps b b' u := by
  obtain ⟨_, rfl⟩ := takeFired_some h
  refine ⟨rfl, ?_⟩
  rw [rung, rung, List.filter_filter]
  refine List.filter_congr fun e _ => ?_
  by_cases eq : e.1 = .task u
  · simp [eq, Ne.symm ne]
  · simp [eq]

theorem forgetCalls_alarms (b : Bench) (t u : TaskId) :
    (b.forgetCalls t).alarms u = b.alarms u := by
  rw [alarms, alarms, forgetCalls, List.filter_filter]
  refine List.filter_congr fun e _ => ?_
  by_cases eq : e.alarm = .task u <;> simp [eq]

theorem forgetCalls_rung (b : Bench) (t u : TaskId) : (b.forgetCalls t).rung u = b.rung u := by
  rw [rung, rung, forgetCalls, List.filter_filter]
  refine List.filter_congr fun e _ => ?_
  by_cases eq : e.1 = .task u <;> simp [eq]

/-- An answer that has come is handed to the client. -/
theorem deliver_steps (b : Bench) (t : TaskId) (q : Query) (w : Work) (host : Host) (due : Due) :
    (b.deliver t q w host due).now = b.now ∧ (b.deliver t q w host due).others = b.others ∧
      (∃ outcome, (b.deliver t q w host due).client =
        b.client.step (.answer t q 0 outcome)) ∧
      ∀ u, SameNaps b (b.deliver t q w host due) u := by
  unfold deliver
  split
  refine ⟨rfl, rfl, ⟨_, rfl⟩, fun u => ?_⟩
  exact ⟨forgetCalls_alarms _ t u, forgetCalls_rung _ t u⟩

/-- The turn of a task that is at one of its calls. -/
theorem actSlot_turn (task : b.client.task? t = some ⟨job, .working w⟩)
    (h : b.actSlot t w q = some b') : Turn b b' t := by
  have awake : ∀ job, b.client.task? t = some ⟨job, .resting⟩ → ∃ told, job = .background told := by
    simp [task]
  have delivers : ∀ {a : Bench} {host due}, a.now = b.now → a.others = b.others →
      a.client = b.client → (∀ u, SameNaps b a u) → Turn b (a.deliver t q w host due) t := by
    intro a host due now others client same
    obtain ⟨now', others', ⟨outcome, moved⟩, same'⟩ := a.deliver_steps t q w host due
    exact ⟨now'.trans now, others'.trans others, .steps _ rfl (client ▸ moved) awake
      fun u => (same u).trans (same' u)⟩
  have wakes : ∀ {a : Bench}, a.now = b.now → a.others = b.others → a.client = b.client →
      (∀ u, SameNaps b a u) → Turn b { a with client := a.client.wake t q } t := by
    intro a now others client same
    exact ⟨now, others, .steps (.wake t q) rfl (congrArg (wake · t q) client) awake
      fun u => ⟨(same u).alarms, (same u).rung⟩⟩
  unfold actSlot at h
  split at h
  · cases h
    exact ⟨rfl, rfl, .steps (.call t q) rfl rfl awake (sameNaps_of_eq rfl rfl)⟩
  · split at h
    · rename_i found
      cases h
      have same := fun u => takeFired_sameNaps found (u := u) (by simp)
      obtain ⟨_, eq⟩ := takeFired_some found
      exact delivers (by rw [eq]) (by rw [eq]) (by rw [eq]) same
    · split at h
      · cases h
      · dsimp only at h
        split at h
        · cases h
          exact delivers rfl rfl rfl (sameNaps_of_eq rfl rfl)
        · cases h
          exact ⟨rfl, rfl, .waits rfl fun u => ⟨setTimer_alarms _ _ _ (by simp), rfl⟩⟩
  · split at h
    · rename_i found
      cases h
      have same := fun u => takeFired_sameNaps found (u := u) (by simp)
      obtain ⟨_, eq⟩ := takeFired_some found
      exact wakes (by rw [eq]) (by rw [eq]) (by rw [eq]) same
    · split at h
      · cases h
      · split at h
        · cases h
          exact wakes rfl rfl rfl sameNaps_refl
        · cases h
          exact ⟨rfl, rfl, .waits rfl fun u => ⟨setTimer_alarms _ _ _ (by simp), rfl⟩⟩
  · cases h

/-- The turn of a task at its rest: it finds its alarm gone off, or it sets its alarm, or there
is no time to wait. -/
theorem rest_turn (task : b.client.task? t = some ⟨job, .resting⟩)
    (h : (match b.takeFired (.task t) with
      | some (_, b) => some { b with client := b.client.resume t }
      | none =>
        if b.isSet (.task t) then none
        else if restOf b.client job = 0 then some { b with client := b.client.resume t }
        else some (b.setTimer (restOf b.client job) (.task t) .ready)) = some b') :
    Turn b b' t := by
  have other : ∀ {u}, u ≠ t → Alarm.task t ≠ .task u := by
    intro u ne eq
    cases eq
    exact ne rfl
  split at h
  · rename_i due a found
    cases h
    obtain ⟨here, eq⟩ := takeFired_some found
    have due : b.rung t ≠ [] := fun none => by
      cases ((lookup_none_iff b.fired (.task t)).mpr none).symm.trans here
    refine ⟨by rw [eq], by rw [eq], .wakes job task (by rw [eq]) (fun u ne => ?_) (by rw [eq]; rfl)
      ?_ (.inl due)⟩
    · have same := takeFired_sameNaps found (other ne)
      exact ⟨same.alarms, same.rung⟩
    · rw [eq, rung, List.filter_filter]
      exact List.filter_eq_nil_iff.mpr fun e _ => by simp
  · rename_i found
    have quiet : b.rung t = [] := by
      refine (lookup_none_iff b.fired (.task t)).mp ?_
      cases here : b.fired.lookup (.task t) with
      | none => rfl
      | some due => simp [takeFired, here] at found
    split at h
    · cases h
    · rename_i set
      have unset : b.alarms t = [] := by
        refine List.filter_eq_nil_iff.mpr fun u here eq => set ?_
        exact List.any_eq_true.mpr ⟨u, here, eq⟩
      split at h
      · rename_i now
        cases h
        exact ⟨rfl, rfl, .wakes job task rfl (fun _ _ => ⟨rfl, rfl⟩) rfl quiet
          (.inr ⟨unset, now⟩)⟩
      · cases h
        refine ⟨rfl, rfl, .sets job task rfl (fun u ne => ⟨setTimer_alarms _ _ _ (other ne), rfl⟩)
          ?_ unset quiet quiet⟩
        exact filter_insertTimer_of_none (by simp) unset

theorem actOwn_turn (h : b.actOwn t = some b') : Turn b b' t := by
  have resumes :
      (∀ job, b.client.task? t = some ⟨job, .resting⟩ → ∃ told, job = .background told) →
      Turn b { b with client := b.client.resume t } t := fun awake =>
    ⟨rfl, rfl, .steps (.resume t) rfl rfl awake (sameNaps_of_eq rfl rfl)⟩
  unfold actOwn at h
  split at h
  · cases h
  · cases h
  · rename_i task
    split at h
    · cases h
      exact resumes (by simp [task])
    · cases h
  · rename_i task
    split at h
    · cases h
      exact resumes (by simp [task])
    · cases h
  · rename_i task
    cases h
    exact resumes (by simp [task])
  · rename_i job _ task
    refine rest_turn task ?_
    cases job <;> exact h
  · rename_i job w task
    obtain ⟨q, _, acts⟩ := List.exists_of_findSome?_eq_some h
    exact actSlot_turn task acts

/-- What goes off is lined up for its turn, which is no matter of the clock. -/
theorem foldl_line (gone : List Timer) (b : Bench) : ∃ beside,
    gone.foldl (fun b t => (b.turnOf t.alarm).elim b b.line) b = { b with beside } := by
  induction gone generalizing b with
  | nil => exact ⟨b.beside, rfl⟩
  | cons u gone ih =>
    rw [List.foldl_cons]
    cases b.turnOf u.alarm with
    | none => exact ih b
    | some turn =>
      obtain ⟨beside, eq⟩ := ih (b.line turn)
      refine ⟨beside, eq.trans ?_⟩
      unfold line
      split <;> rfl

theorem length_filter_partition (p q : Timer → Bool) (l : List Timer) :
    ((l.filter (not ∘ p)).filter q).length + ((l.filter p).filter q).length =
      (l.filter q).length := by
  rw [List.length_eq_length_filter_add (l := l.filter q) p, Nat.add_comm]
  simp only [List.filter_filter, Function.comp_def, Bool.and_comm]

/-- The clock goes on, and some alarms whose time has come have gone off. -/
structure Jumped (b b' : Bench) : Prop where
  client : b'.client = b.client
  others : b'.others = b.others
  now : b.now ≤ b'.now
  all : ∀ t, (b'.alarms t).length + (b'.rung t).length =
    (b.alarms t).length + (b.rung t).length
  kept : ∀ t, ∀ u ∈ b'.alarms t, u ∈ b.alarms t
  due : ∀ t, b'.rung t ≠ [] → b.rung t ≠ [] ∨ ∃ u ∈ b.alarms t, u.deadline ≤ b'.now

/-- The clock goes on to the first deadline, and all alarms up to it have gone off. -/
theorem jump?_eq (h : b.jump? = some b') : ∃ first : Timer,
    b'.client = b.client ∧ b'.others = b.others ∧ b'.now = max b.now first.deadline ∧
    b'.timers = b.timers.filter (not ∘ fun u => u.deadline ≤ first.deadline) ∧
    b'.fired = b.fired ++ (b.timers.filter fun u => u.deadline ≤ first.deadline).map
      fun u => (u.alarm, u.due) := by
  unfold jump? at h
  split at h
  · cases h
  · rename_i first later timers
    rw [List.partition_eq_filter_filter] at h
    obtain ⟨beside, eq⟩ := foldl_line (b.timers.filter fun u => u.deadline ≤ first.deadline)
      { b with
        now := max b.now first.deadline
        timers := b.timers.filter (not ∘ fun u => u.deadline ≤ first.deadline)
        fired := b.fired ++
          (b.timers.filter fun u => u.deadline ≤ first.deadline).map fun u => (u.alarm, u.due) }
    obtain rfl := Option.some.inj h
    rw [eq]
    exact ⟨first, rfl, rfl, rfl, rfl, rfl⟩

theorem jump?_jumped (h : b.jump? = some b') : Jumped b b' := by
  obtain ⟨first, client, others, now, timers, fired⟩ := jump?_eq h
  have gone : ∀ t, b'.rung t = b.rung t ++
      ((b.timers.filter fun u => u.deadline ≤ first.deadline).filter
        fun u => u.alarm == .task t).map fun u => (u.alarm, u.due) := by
    intro t
    rw [rung, fired, List.filter_append, List.filter_map]
    rfl
  refine ⟨client, others, by omega, fun t => ?_, fun t u here => ?_, fun t some => ?_⟩
  · have split := length_filter_partition (fun u => u.deadline ≤ first.deadline)
      (fun u => u.alarm == .task t) b.timers
    rw [gone, List.length_append, List.length_map, alarms, alarms, timers]
    omega
  · rw [alarms, timers] at here
    obtain ⟨left, own⟩ := List.mem_filter.mp here
    exact List.mem_filter.mpr ⟨(List.mem_filter.mp left).1, own⟩
  · rw [gone] at some
    by_cases none : b.rung t = []
    · rw [none, List.nil_append] at some
      obtain ⟨u, here⟩ := List.exists_mem_of_ne_nil _ (mt List.map_eq_nil_iff.mpr some)
      obtain ⟨early, own⟩ := List.mem_filter.mp here
      obtain ⟨set, early⟩ := List.mem_filter.mp early
      have early : u.deadline ≤ first.deadline := by simpa using early
      exact .inr ⟨u, List.mem_filter.mpr ⟨set, own⟩, by omega⟩
    · exact .inl none

/-- What goes on at the bench: an operation is begun, a task has its turn, the clock jumps, or
something happens to the services and alarms that is no matter of the client. -/
inductive Goes (b : Bench) : Bench → Prop
  | begins (op : Operation) : Goes b { b with client := b.client.invoke op }
  | acts {b' : Bench} (t : TaskId) (h : b.actTask t = some b') : Goes b b'
  | jumps {b' : Bench} (h : b.jump? = some b') : Goes b b'
  | aside {b' : Bench} (client : b'.client = b.client) (others : b'.others = b.others)
      (now : b'.now = b.now) (same : ∀ t, SameNaps b b' t) : Goes b b'

/-- What a bench can come to on which there is one client only. -/
inductive Reached (new : Client) : Bench → Prop
  | start : Reached new (start new)
  | next {b b' : Bench} (h : Reached new b) (goes : Goes b b') : Reached new b'

theorem turnTo_alone (alone : b.others = ∅) (number : Nat) : b.turnTo number = b := by
  rw [turnTo, alone]
  rfl

theorem actTask_turn (alone : b.others = ∅) (h : b.actTask t = some b') : Turn b b' t := by
  rw [actTask, turnTo_alone alone, Option.map_eq_some_iff] at h
  obtain ⟨a, acts, rfl⟩ := h
  have turn := actOwn_turn acts
  rwa [turnBack, turnTo_alone (turn.others.trans alone)]

/-- A task has one alarm at most, and none unless it is at a rest, or serves in the background. -/
structure Tended (new : Client) (b : Bench) : Prop where
  alone : b.others = ∅
  regular : Regular b.client
  options : b.client.options = new.options
  one : ∀ t, (b.alarms t).length + (b.rung t).length ≤ 1
  idle : ∀ t, (∀ job standing, b.client.task? t = some ⟨job, standing⟩ →
    standing ≠ .resting ∧ ∀ told, job ≠ .background told) → b.alarms t = [] ∧ b.rung t = []

/-- A task that is neither at a rest nor in the background after a step was neither before,
unless the step has brought it there. -/
theorem awake_before {c : Client} (regular : Regular c) (e : Event)
    (own : t = c.subject e → ∀ job, c.task? t = some ⟨job, .resting⟩ →
      ∃ told, job = .background told)
    (after : ∀ job standing, (c.step e).task? t = some ⟨job, standing⟩ →
      standing ≠ .resting ∧ ∀ told, job ≠ .background told)
    (job : Job) (standing : Standing) (before : c.task? t = some ⟨job, standing⟩) :
    standing ≠ .resting ∧ ∀ told, job ≠ .background told := by
  have front : ∀ told, job ≠ .background told := by
    rintro told rfl
    obtain ⟨job', standing', task, kept⟩ := step_keepsJob regular e before
    cases kept with
    | same => exact (after _ _ task).2 told rfl
    | told _ => exact (after _ _ task).2 true rfl
  refine ⟨?_, front⟩
  rintro rfl
  by_cases eq : t = c.subject e
  · obtain ⟨told, background⟩ := own eq job before
    exact front told background
  · rcases step_stays regular.toOrderly e before eq with same | ⟨told, background, _⟩
    · exact (after _ _ same).1 rfl
    · exact front told background

theorem SameNaps.idle {u : TaskId} (h : SameNaps b b' u) (idle : b.alarms u = [] ∧ b.rung u = []) :
    b'.alarms u = [] ∧ b'.rung u = [] :=
  ⟨h.alarms.trans idle.1, h.rung.trans idle.2⟩

/-- What has happened to a task, and to its alarms, with something that goes on at the bench. -/
inductive Passing (b b' : Bench) (t : TaskId) : Prop
  | steps (e : Event) (moved : b'.client = b.client.step e) (now : b'.now = b.now)
      (own : t = b.client.subject e → ∀ job, b.client.task? t = some ⟨job, .resting⟩ →
        ∃ told, job = .background told)
      (same : SameNaps b b' t)
  | waits (still : b'.client = b.client) (now : b'.now = b.now) (same : SameNaps b b' t)
  | sets (job : Job) (task : b.client.task? t = some ⟨job, .resting⟩)
      (still : b'.client = b.client) (now : b'.now = b.now)
      (alarms : b'.alarms t = [⟨b.now + min (restOf b.client job) longest, .task t, .ready⟩])
      (rung : b'.rung t = [])
  | wakes (job : Job) (task : b.client.task? t = some ⟨job, .resting⟩)
      (moved : b'.client = b.client.step (.resume t)) (now : b'.now = b.now)
      (none : b'.alarms t = [] ∧ b'.rung t = [])
      (due : b.rung t ≠ [] ∨ restOf b.client job = 0)
  | jumps (jumped : Jumped b b')

variable {new : Client}

theorem Goes.passing (goes : Goes b b') (h : Tended new b) :
    b'.others = ∅ ∧ ∀ t, Passing b b' t := by
  cases goes with
  | begins op =>
    refine ⟨h.alone, fun t => .steps (.invoke op) rfl rfl ?_ ⟨rfl, rfl⟩⟩
    rintro rfl job task
    cases (h.regular.fresh _ (Nat.le_refl _)).symm.trans task
  | jumps jumps =>
    have jumped := jump?_jumped jumps
    exact ⟨jumped.others.trans h.alone, fun t => .jumps jumped⟩
  | aside client others now same =>
    exact ⟨others.trans h.alone, fun t => .waits client now (same t)⟩
  | acts s acts =>
    have turn := actTask_turn h.alone acts
    refine ⟨turn.others.trans h.alone, fun t => ?_⟩
    cases turn.acted with
    | steps e own moved awake same =>
      exact .steps e moved turn.now (fun eq => eq.trans own ▸ awake) (same t)
    | waits still same => exact .waits still turn.now (same t)
    | sets job task still others alarms _ _ rung =>
      by_cases eq : t = s
      · subst eq
        exact .sets job task still turn.now alarms rung
      · exact .waits still turn.now (others t eq)
    | wakes job task moved others alarms rung due =>
      by_cases eq : t = s
      · subst eq
        refine .wakes job task moved turn.now ⟨alarms.trans ?_, rung⟩ (due.imp_right And.right)
        rcases due with gone | ⟨unset, _⟩
        · -- the one alarm that the task has is the one that has gone off
          have one := h.one t
          have some := List.length_pos_of_ne_nil gone
          exact List.eq_nil_of_length_eq_zero (by omega)
        · exact unset
      · exact .steps (.resume s) moved turn.now (fun own => absurd own eq) (others t eq)

theorem Passing.client (h : Passing b b' t) :
    b'.client = b.client ∨ ∃ e, b'.client = b.client.step e := by
  cases h with
  | steps e moved _ _ _ => exact .inr ⟨e, moved⟩
  | waits still _ _ => exact .inl still
  | sets _ _ still _ _ _ => exact .inl still
  | wakes _ _ moved _ _ _ => exact .inr ⟨_, moved⟩
  | jumps jumped => exact .inl jumped.client

theorem Passing.now_le (h : Passing b b' t) : b.now ≤ b'.now := by
  cases h with
  | jumps jumped => exact jumped.now
  | _ => exact Nat.le_of_eq (Eq.symm ‹b'.now = b.now›)

theorem Goes.tended (goes : Goes b b') (h : Tended new b) : Tended new b' := by
  obtain ⟨alone, passing⟩ := goes.passing h
  have client := (passing 0).client
  refine ⟨alone, ?_, ?_, fun t => ?_, fun t after => ?_⟩
  · rcases client with still | ⟨e, moved⟩
    · exact still ▸ h.regular
    · exact moved ▸ step_regular h.regular e
  · rcases client with still | ⟨e, moved⟩
    · exact still ▸ h.options
    · rw [moved, (b.client.step_later e).options, h.options]
  · cases passing t with
    | steps _ _ _ _ same =>
      rw [same.alarms, same.rung]
      exact h.one t
    | waits _ _ same =>
      rw [same.alarms, same.rung]
      exact h.one t
    | sets _ _ _ _ alarms rung => simp [alarms, rung]
    | wakes _ _ _ _ none _ => simp [none.1, none.2]
    | jumps jumped =>
      rw [jumped.all]
      exact h.one t
  · cases passing t with
    | steps e moved _ own same =>
      rw [moved] at after
      exact same.idle (h.idle t (awake_before h.regular e own after))
    | waits still _ same => exact same.idle (h.idle t (still ▸ after))
    | sets job task still _ _ _ => exact absurd rfl (after job _ (still ▸ task)).1
    | wakes _ _ _ _ none _ => exact none
    | jumps jumped =>
      obtain ⟨unset, quiet⟩ := h.idle t (jumped.client ▸ after)
      simpa [unset, quiet] using jumped.all t

theorem Reached.tended (regular : Regular new) (h : Reached new b) : Tended new b := by
  induction h with
  | start => exact ⟨rfl, regular, rfl, fun _ => Nat.zero_le _, fun _ _ => ⟨rfl, rfl⟩⟩
  | next _ goes ih => exact goes.tended ih

variable {n fell rest : Nat}

/-- The start rests before a probe. It has come to its rest at some time, and its alarm is for so
long after a later one. -/
structure Asleep (b : Bench) (t : TaskId) (n fell rest : Nat) : Prop where
  task : b.client.task? t = some ⟨.start n, .resting⟩
  later : fell ≤ b.now
  set : ∀ u ∈ b.alarms t, ∃ since, fell ≤ since ∧ since ≤ b.now ∧ u.deadline = since + rest
  rung : b.rung t ≠ [] → fell + rest ≤ b.now

/-- A start that comes to its rest has no alarm yet. -/
theorem Goes.falls_asleep (goes : Goes b b') (h : Tended new b)
    (before : b.client.task? t ≠ some ⟨.start n, .resting⟩)
    (after : b'.client.task? t = some ⟨.start n, .resting⟩) :
    b'.now = b.now ∧ b'.alarms t = [] ∧ b'.rung t = [] := by
  cases (goes.passing h).2 t with
  | waits still _ _ => exact absurd (still ▸ after) before
  | sets _ _ still _ _ _ => exact absurd (still ▸ after) before
  | jumps jumped => exact absurd (jumped.client ▸ after) before
  | wakes _ _ _ now none _ => exact ⟨now, none⟩
  | steps e moved now own same =>
    rw [moved] at after
    refine ⟨now, same.idle (h.idle t fun job standing task => ?_)⟩
    have front : ∀ told, job ≠ .background told := by
      rintro told rfl
      obtain ⟨job', standing', task', kept⟩ := step_keepsJob h.regular e task
      cases task'.symm.trans after
      cases kept
    refine ⟨?_, front⟩
    rintro rfl
    by_cases eq : t = b.client.subject e
    · obtain ⟨told, background⟩ := own eq job task
      exact front told background
    · rcases step_stays h.regular.toOrderly e task eq with stays | ⟨told, background, _⟩
      · cases stays.symm.trans after
        exact before task
      · exact front told background

/-- As long as the start rests, its alarm is set once and not moved. -/
theorem Asleep.stays (asleep : Asleep b t n fell (min new.options.retryInterval longest))
    (goes : Goes b b') (h : Tended new b)
    (after : b'.client.task? t = some ⟨.start n, .resting⟩) :
    Asleep b' t n fell (min new.options.retryInterval longest) := by
  have passing := (goes.passing h).2 t
  have later : b.now ≤ b'.now := passing.now_le
  have kept : ∀ u ∈ b.alarms t, ∃ since, fell ≤ since ∧ since ≤ b'.now ∧
      u.deadline = since + min new.options.retryInterval longest := by
    intro u here
    obtain ⟨since, first, past, due⟩ := asleep.set u here
    exact ⟨since, first, Nat.le_trans past later, due⟩
  have same : SameNaps b b' t → Asleep b' t n fell (min new.options.retryInterval longest) := by
    intro same
    refine ⟨after, Nat.le_trans asleep.later later, ?_, ?_⟩
    · rw [same.alarms]
      exact kept
    · rw [same.rung]
      exact fun gone => Nat.le_trans (asleep.rung gone) later
  cases passing with
  | steps _ _ _ _ naps => exact same naps
  | waits _ _ naps => exact same naps
  | sets job task _ now alarms rung =>
    cases asleep.task.symm.trans task
    refine ⟨after, Nat.le_trans asleep.later later, fun u here => ?_, fun some => absurd rung some⟩
    rw [alarms] at here
    rw [List.mem_singleton.mp here, restOf_start, h.options]
    exact ⟨b.now, asleep.later, later, rfl⟩
  | wakes _ _ _ _ none _ =>
    refine ⟨after, Nat.le_trans asleep.later later, fun u here => ?_, fun some =>
      absurd none.2 some⟩
    rw [none.1] at here
    cases here
  | jumps jumped =>
    refine ⟨after, Nat.le_trans asleep.later later, fun u here => kept u (jumped.kept t u here),
      fun some => ?_⟩
    rcases jumped.due t some with gone | ⟨u, here, early⟩
    · exact Nat.le_trans (asleep.rung gone) later
    · obtain ⟨since, first, _, due⟩ := asleep.set u here
      omega

/-- The start goes on only after its alarm has gone off, if there was any time to wait. -/
theorem Asleep.wakes (asleep : Asleep b t n fell rest) (goes : Goes b b') (h : Tended new b)
    (after : b'.client.task? t ≠ some ⟨.start n, .resting⟩) :
    fell + rest ≤ b.now ∨ new.options.retryInterval = 0 := by
  have stays : ∀ e, t ≠ b.client.subject e → b'.client ≠ b.client.step e := by
    intro e ne moved
    rcases step_stays h.regular.toOrderly e asleep.task ne with same | ⟨_, background, _⟩
    · exact after (moved ▸ same)
    · cases background
  cases (goes.passing h).2 t with
  | steps e moved _ own _ =>
    refine absurd moved (stays e fun eq => ?_)
    obtain ⟨_, background⟩ := own eq _ asleep.task
    cases background
  | waits still _ _ => exact absurd (still ▸ asleep.task) after
  | sets _ _ still _ _ _ => exact absurd (still ▸ asleep.task) after
  | jumps jumped => exact absurd (jumped.client ▸ asleep.task) after
  | wakes job task _ _ _ due =>
    cases asleep.task.symm.trans task
    refine due.imp asleep.rung fun none => ?_
    rwa [restOf_start, h.options] at none

/-- From one moment to the other the start rests before the same probe. -/
inductive Dozes (t : TaskId) (n : Nat) : Bench → Bench → Prop
  | rests {b : Bench} (task : b.client.task? t = some ⟨.start n, .resting⟩) : Dozes t n b b
  | on {b b' b'' : Bench} (h : Dozes t n b b') (goes : Goes b' b'')
      (task : b''.client.task? t = some ⟨.start n, .resting⟩) : Dozes t n b b''

theorem Dozes.first (h : Dozes t n b b') : b.client.task? t = some ⟨.start n, .resting⟩ := by
  induction h with
  | rests task => exact task
  | on _ _ _ ih => exact ih

theorem Dozes.asleep (dozes : Dozes t n b b') (h : Tended new b)
    (unset : b.alarms t = []) (quiet : b.rung t = []) :
    Tended new b' ∧ Asleep b' t n b.now (min new.options.retryInterval longest) := by
  induction dozes with
  | rests task => exact ⟨h, task, Nat.le_refl _, by simp [unset], by simp [quiet]⟩
  | on _ goes task ih => exact ⟨goes.tended ih.1, ih.2.stays goes ih.1 task⟩

/-- The start has come to its rest at the one moment, and is at it still at the other. -/
structure Naps (new : Client) (t : TaskId) (n : Nat) (b b' : Bench) : Prop where
  falls : ∃ a, Reached new a ∧ a.client.task? t ≠ some ⟨.start n, .resting⟩ ∧ Goes a b
  dozes : Dozes t n b b'

/-- The rest of the start is over with the next thing that goes on. -/
def Wakes (b : Bench) (t : TaskId) (n : Nat) : Prop :=
  ∃ b', Goes b b' ∧ b'.client.task? t ≠ some ⟨.start n, .resting⟩

theorem Naps.asleep (regular : Regular new) (h : Naps new t n b b') :
    Tended new b' ∧ Asleep b' t n b.now (min new.options.retryInterval longest) := by
  obtain ⟨a, reached, before, falls⟩ := h.falls
  have tended := reached.tended regular
  obtain ⟨_, unset, quiet⟩ := falls.falls_asleep tended before h.dozes.first
  exact h.dozes.asleep (falls.tended tended) unset quiet

/-- Between two probes of a start the clock goes on by the retry interval. -/
theorem Naps.long (regular : Regular new) (h : Naps new t n b b') (wakes : Wakes b' t n) :
    b.now + min new.options.retryInterval longest ≤ b'.now := by
  obtain ⟨b'', goes, after⟩ := wakes
  obtain ⟨tended, asleep⟩ := h.asleep regular
  rcases asleep.wakes goes tended after with due | none
  · exact due
  · rw [none, Nat.zero_min]
    exact asleep.later

end ClusterClient.Simulation.Bench
