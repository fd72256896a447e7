import ClusterClient.Proofs.Finality
/-!
What becomes of a start that is pending when the client is told to stop. Each of its probes
then counts as one more that failed, so the start ends only when it has used up its tries,
and one that may try without limit goes on for good.
-/
namespace ClusterClient

/-- How many probes a start that stands so has begun and not brought to an end. -/
def Standing.underway : Standing → Nat
  | .queued | .working _ => 1
  | _ => 0

namespace Client

variable {c d : Client} {t : TaskId} {n tries : Nat} {standing : Standing} {q : Query} {w : Work}

/-- The start has not come to its end: it has failed so often, and stands so. -/
structure Pending (c : Client) (t : TaskId) (failed : Nat) (standing : Standing) : Prop where
  task : c.task? t = some ⟨.start failed, standing⟩
  live : ∀ r, standing ≠ .done r

/-- How many further probes of a start begin with an event. -/
def probesAgain (c : Client) (t : TaskId) : Event → Nat
  | .resume u =>
    match c.task? t with
    | some ⟨.start _, .resting⟩ => if u = t then 1 else 0
    | _ => 0
  | _ => 0

/-- How many further probes a start begins in a run. -/
def furtherProbes (t : TaskId) : Client → List Event → Nat
  | _, [] => 0
  | c, e :: events => c.probesAgain t e + furtherProbes t (c.step e) events

/-- A start may try again, and does not wait for a background task. -/
structure Trying (c : Client) (failed : Nat) (standing : Standing) : Prop where
  left : ¬ c.Spent failed
  apart : ∀ b, standing ≠ .joining b

/-- What a step may have made of a start that has begun so many probes. -/
inductive Tried (c d : Client) (t : TaskId) (tries : Nat) : Prop
  | goes {failed : Nat} {standing : Standing} (pending : Pending d t failed standing)
      (trying : Trying d failed standing) (all : failed + standing.underway = tries)
  | gaveUp {failed : Nat} {words : String} (all : failed + 1 = tries)
      (task : d.task? t =
        some ⟨.start tries, .done (.error (.notReady (.unavailable tries words)))⟩)
      (spent : d.Spent tries) (left : ¬ d.Spent failed)
  | ready {failed : Nat} (busy : c.Busy t) (probing : c.phase = .probing)
      (task : d.task? t = some ⟨.start failed, .done (.ok .nothing)⟩)
  | refused {failed : Nat} (busy : c.Busy t)
      (task : d.task? t = some ⟨.start failed, .done (.error (.notReady .stopped))⟩)

/-- The step can as well be one of a client with the same tasks. -/
theorem Tried.before {b : Client} (h : Tried c d t tries) (same : c.task? t = b.task? t)
    (phase : c.phase = b.phase) : Tried b d t tries := by
  have busy : c.Busy t → b.Busy t := by
    rintro ⟨job, w, task, fills⟩
    exact ⟨job, w, same ▸ task, fills⟩
  cases h with
  | goes pending trying all => exact .goes pending trying all
  | gaveUp all task spent left => exact .gaveUp all task spent left
  | ready going probing task => exact .ready (busy going) (phase ▸ probing) task
  | refused going task => exact .refused (busy going) task

theorem tried_stand (left : ¬ d.Spent n) (live : ∀ r, standing ≠ .done r)
    (apart : ∀ b, standing ≠ .joining b) :
    Tried c (d.stand t (.start n) standing) t (n + standing.underway) :=
  .goes ⟨(d.task?_stand ..).trans (if_pos rfl), live⟩ ⟨left, apart⟩ rfl

theorem Ending.tried {result : Except Fault Payload} (h : Ending c t (.start n) result d)
    (left : ¬ c.Spent n) (working : ∀ payload, result = .ok payload → c.Busy t) :
    Tried c d t (n + 1) := by
  cases h with
  | answered idle _ => cases idle
  | finishes _ _ outcome fatal refused =>
    obtain ⟨⟨_, payload, ok⟩, rfl⟩ := refused n rfl
    exact .refused (working payload ok) ((Client.task?_finish ..).trans (if_pos rfl))
  | rests _ fatal next kinds =>
    rcases kinds with ⟨eq, _⟩ | ⟨m, _, eq, rfl, _, more⟩
    · cases eq
    · cases eq
      exact tried_stand (d := { c.release with fatal }) more (by simp) (by simp)
  | ready _ payload probing =>
    exact .ready (working payload rfl) probing ((Client.task?_finish ..).trans (if_pos rfl))
  | givesUp _ fault fatal spent =>
    exact .gaveUp rfl ((Client.task?_finish ..).trans (if_pos rfl)) spent left

theorem Entry.tried (h : Entry c t (.start n) d) (left : ¬ c.Spent n) : Tried c d t (n + 1) := by
  cases h with
  | refused _ _ ends => exact ends.tried left nofun
  | begins _ _ => exact tried_stand left (by simp) (by simp)

theorem Queueing.tried (h : Queueing c t (.start n) d) (left : ¬ c.Spent n) :
    Tried c d t (n + 1) := by
  cases h with
  | waits u _ =>
    exact tried_stand (d := { c with waiting := c.waiting ++ [t] }) left (by simp) (by simp)
  | turns _ entry => exact (entry.tried left).before rfl rfl

theorem Dialling.tried (h : Dialling c t q d) (pending : Pending c t n standing)
    (left : ¬ c.Spent n) : Tried c d t (n + standing.underway) := by
  cases h with
  | made task estimates s _ =>
    cases task.symm.trans pending.task
    exact tried_stand (d := { c with estimates }) left (by simp) (by simp)

theorem Answering.tried {outcome : Except Fault (MetaReply q.Value)}
    (h : Answering c t q (.start n) w outcome d) (task : c.task? t = some ⟨.start n, .working w⟩)
    (left : ¬ c.Spent n) : Tried c d t (n + 1) := by
  have busy : c.Busy t := ⟨_, w, task, rfl⟩
  cases h with
  | again estimates s _ => exact tried_stand (d := { c with estimates }) left (by simp) (by simp)
  | pauses estimates s _ => exact tried_stand (d := { c with estimates }) left (by simp) (by simp)
  | fails estimates fault ending _ => exact (ending.tried left nofun).before rfl rfl
  | advances estimates leader v advancing _ =>
    refine tried_stand (fun spent => left ?_) (by simp) (by simp)
    rwa [Spent, advancing.alike.options] at spent
  | ends estimates leader v advancing ending _ =>
    have like := advancing.alike
    have same := congrArg (·.get? t) like.tasks
    refine (ending.tried (fun spent => left ?_) fun _ _ => ?_).before same like.phase
    · rwa [Spent, like.options] at spent
    · exact ⟨_, w, same.trans task, rfl⟩

theorem Pending.later (h : Pending c t n standing) (regular : Regular c) (e : Event)
    (other : t ≠ c.subject e) : Pending (c.step e) t n standing := by
  rcases step_stays regular.toOrderly e h.task other with same | ⟨_, background, _⟩
  · exact ⟨same, h.live⟩
  · cases background

theorem Pending.probesAgain_of_rest (h : Pending c t n .resting) :
    c.probesAgain t (.resume t) = 1 := by
  simp [probesAgain, h.task]

theorem Pending.probesAgain_else (h : Pending c t n standing) {e : Event}
    (other : ¬ (e = .resume t ∧ standing = .resting)) : c.probesAgain t e = 0 := by
  cases e with
  | resume u =>
    by_cases here : u = t
    · subst here
      have awake : standing ≠ .resting := fun eq => other ⟨rfl, eq⟩
      rw [probesAgain, h.task]
      cases standing with
      | resting => exact absurd rfl awake
      | _ => rfl
    · simp only [probesAgain, if_neg here]
      split <;> rfl
  | _ => rfl

theorem Resuming.tried (h : Resuming c t d) (pending : Pending c t n standing)
    (trying : Trying c n standing) :
    Tried c d t (n + standing.underway + c.probesAgain t (.resume t)) := by
  have left := trying.left
  cases h with
  | enters task _ entry =>
    cases task.symm.trans pending.task
    rw [pending.probesAgain_else (by simp)]
    exact entry.tried left
  | ends task => cases task.symm.trans pending.task
  | rested task queueing =>
    cases task.symm.trans pending.task
    rw [pending.probesAgain_of_rest]
    exact queueing.tried left
  | joined task _ _ =>
    cases task.symm.trans pending.task
    exact absurd rfl (trying.apart _)

/-- A start at its rest goes on to its next probe, whatever else is going on. -/
theorem resuming_of_rest (task : c.task? t = some ⟨.start n, .resting⟩) :
    Resuming c t (c.resume t) := by
  have queues : c.resume t = c.queue t (.start n) := by simp [resume, task]
  rw [queues]
  exact .rested task (queue_queueing ..)

theorem step_tried (regular : Regular c) (pending : Pending c t n standing)
    (trying : Trying c n standing) (e : Event) :
    Tried c (c.step e) t (n + standing.underway + c.probesAgain t e) := by
  have stays : Tried c c t (n + standing.underway) := .goes pending trying rfl
  by_cases rest : e = .resume t ∧ standing = .resting
  · obtain ⟨rfl, rfl⟩ := rest
    exact (resuming_of_rest pending.task).tried pending trying
  have none := pending.probesAgain_else rest
  by_cases own : t = c.subject e
  · subst own
    have move := c.step_move e
    generalize c.step e = d at move
    cases move with
    | nothing =>
      rw [none]
      exact stays
    | begins _ => cases (regular.fresh _ (Nat.le_refl _)).symm.trans pending.task
    | calls dialling => exact dialling.tried pending trying.left
    | wakes dialling => exact dialling.tried pending trying.left
    | resumes resuming => exact resuming.tried pending trying
    | answers calling answering =>
      cases calling.task.symm.trans pending.task
      exact answering.tried pending.task trying.left
  · rw [none]
    have options := (c.step_later e).options
    have trying' : Trying (c.step e) n standing :=
      ⟨by rw [Spent, options]; exact trying.left, trying.apart⟩
    exact .goes (pending.later regular e own) trying' rfl

theorem Tried.pending (h : Tried c d t tries) (pending : Pending d t n standing) :
    Trying d n standing ∧ n + standing.underway = tries := by
  have unfinished : ∀ {job r}, d.task? t ≠ some ⟨job, .done r⟩ := by
    intro job r task
    cases task.symm.trans pending.task
    exact pending.live r rfl
  cases h with
  | goes pending' trying all =>
    cases pending'.task.symm.trans pending.task
    exact ⟨trying, all⟩
  | gaveUp _ task _ _ => exact absurd task unfinished
  | ready _ _ task => exact absurd task unfinished
  | refused _ task => exact absurd task unfinished

/-- All starts that are pending may try again. -/
def Tries (c : Client) : Prop :=
  ∀ t failed standing, Pending c t failed standing → Trying c failed standing

theorem not_spent_zero (c : Client) : ¬ c.Spent 0 := by
  rintro ⟨_, spent⟩
  omega

theorem Pending.of_keepsJob (h : Pending d t n standing) {job : Job} (kept : d.KeepsJob t job) :
    ∃ failed, job = .start failed := by
  obtain ⟨job', standing', task, kept⟩ := kept
  cases task.symm.trans h.task
  cases kept with
  | same => exact ⟨n, rfl⟩
  | tries failed => exact ⟨failed, rfl⟩

theorem Beginning.trying {op : Operation} (h : Beginning c op d)
    (pending : Pending d c.nextTask n standing) : Trying d n standing := by
  -- what is begun for something else is no start
  have other : ∀ {job}, d.KeepsJob c.nextTask job → (∀ failed, job ≠ .start failed) →
      Trying d n standing := by
    intro job kept apart
    obtain ⟨failed, eq⟩ := pending.of_keepsJob kept
    exact absurd eq (apart failed)
  cases h with
  | start _ queueing => exact ((queueing.tried (not_spent_zero _)).pending pending).1
  | declined result _ _ _ =>
    cases ((Client.task?_finish ..).trans (if_pos rfl)).symm.trans pending.task
    exact absurd rfl (pending.live result)
  | joins clear b _ => exact other (keepsJob_stand (.same _)) (by simp)
  | stop clear _ queueing => exact other queueing.keepsJob (by simp)
  | ignored => exact other (keepsJob_stand (.same _)) (by simp)
  | refresh queueing => exact other queueing.keepsJob (by simp)
  | loadData queueing => exact other queueing.keepsJob (by simp)
  | loadConfig queueing => exact other queueing.keepsJob (by simp)
  | heartbeat => exact other (keepsJob_stand (.same _)) (by simp)
  | ask q request => exact other (keepsJob_stand (.same _)) (by simp)

/-- A task that is there after a step was there before, or is the one that was begun, or is the
background task of a client that has become ready. -/
theorem known_or_begun (c : Client) (e : Event) {task : Task}
    (here : (c.step e).task? t = some task) (new : c.task? t = none) :
    (∃ op, e = .invoke op ∧ t = c.nextTask) ∨
      task = ⟨.background false, .resting⟩ ∧ t = c.nextTask ∧ c.phase = .probing ∧
        (c.step e).phase = .running := by
  by_cases eq : t = c.subject e
  · subst eq
    have move := c.step_move e
    generalize c.step e = d at move here
    cases move with
    | nothing => cases new.symm.trans here
    | begins _ => exact .inl ⟨_, rfl, rfl⟩
    | calls dialling =>
      cases dialling with
      | made task _ _ _ => cases new.symm.trans task
    | wakes dialling =>
      cases dialling with
      | made task _ _ _ => cases new.symm.trans task
    | resumes resuming =>
      cases resuming with
      | enters task _ _ => cases new.symm.trans task
      | ends task => cases new.symm.trans task
      | rested task _ => cases new.symm.trans task
      | joined task _ _ => cases new.symm.trans task
    | answers calling _ => cases new.symm.trans calling.task
  · cases c.step_beside e eq with
    | same same => cases new.symm.trans (same.symm.trans here)
    | spawned number after ready =>
      cases after.symm.trans here
      exact .inr ⟨rfl, number, ready⟩
    | told _ _ before _ => cases new.symm.trans before

theorem step_tries (regular : Regular c) (h : Tries c) (e : Event) : Tries (c.step e) := by
  intro t failed standing pending
  cases before : c.task? t with
  | none =>
    rcases known_or_begun c e pending.task before with ⟨op, rfl, rfl⟩ | ⟨eq, _⟩
    · exact (c.invoke_beginning op).trying pending
    · cases eq
  | some task =>
    obtain ⟨job, standing'⟩ := task
    obtain ⟨n, rfl⟩ := pending.of_keepsJob (step_keepsJob regular e before)
    have live : ∀ r, standing' ≠ .done r := by
      rintro r rfl
      cases (step_done regular.toOrderly e (by simp) before).symm.trans pending.task
      exact pending.live r rfl
    have earlier : Pending c t n standing' := ⟨before, live⟩
    exact ((step_tried regular earlier (h t n standing' earlier) e).pending pending).1

theorem run_tries (regular : Regular c) (h : Tries c) (events : List Event) :
    Tries (c.run events) :=
  regular.run_keeps (P := Tries) (fun _ e regular h => step_tries regular h e) h events

theorem reached_tries (h : Reached c) : Tries c := by
  obtain ⟨_, _, _, _, _, new, events, created, rfl⟩ := h
  refine run_tries (create_regular created) (fun t failed standing pending => ?_) events
  cases ((create_pristine created).tasks t).symm.trans pending.task

theorem Spent.mono (h : c.Spent n) {m : Nat} (le : n ≤ m) : c.Spent m := by
  obtain ⟨limited, spent⟩ := h
  exact ⟨limited, by omega⟩

theorem spent_step (c : Client) (e : Event) (n : Nat) : (c.step e).Spent n ↔ c.Spent n := by
  rw [Spent, Spent, (c.step_later e).options]

/-- A start that is at a probe does not begin another one. -/
theorem Busy.probesAgain_eq (h : c.Busy t) (e : Event) : c.probesAgain t e = 0 := by
  obtain ⟨job, w, task, _⟩ := h
  cases e with
  | resume u => simp [probesAgain, task]
  | _ => rfl

theorem furtherProbes_append (t : TaskId) (c : Client) (events more : List Event) :
    furtherProbes t c (events ++ more) = furtherProbes t c events +
      furtherProbes t (c.run events) more := by
  induction events generalizing c with
  | nil => exact (Nat.zero_add _).symm
  | cons e events ih =>
    rw [List.cons_append, furtherProbes, ih, furtherProbes, Nat.add_assoc]
    rfl

theorem furtherProbes_over (orderly : Orderly c) {r : Except Fault Payload}
    (task : c.task? t = some ⟨.start n, .done r⟩) (events : List Event) :
    furtherProbes t c events = 0 := by
  induction events generalizing c with
  | nil => rfl
  | cons e events ih =>
    have none : c.probesAgain t e = 0 := by
      cases e with
      | resume u => simp [probesAgain, task]
      | _ => rfl
    have later := ih (step_orderly orderly e) (step_done orderly e (by simp) task)
    rw [furtherProbes, none, later]

/-- What has become of a start when it has begun so many probes, some of them further ones: it
still has tries left, or has used them all up, or the probe that it was at got through. -/
inductive Outlasts (c d : Client) (t : TaskId) (tries further : Nat) : Prop
  | goes {failed : Nat} {standing : Standing} (pending : Pending d t failed standing)
      (left : ¬ c.Spent failed) (all : failed + standing.underway = tries)
  | gaveUp {words : String}
      (task : d.task? t =
        some ⟨.start tries, .done (.error (.notReady (.unavailable tries words)))⟩)
      (spent : c.Spent tries) (left : ¬ c.Spent (tries - 1))
  | refused {failed : Nat} (busy : c.Busy t) (none : further = 0)
      (task : d.task? t = some ⟨.start failed, .done (.error (.notReady .stopped))⟩)

theorem run_outlasts (regular : Regular c) (stopped : c.stopped = true)
    (pending : Pending c t n standing) (trying : Trying c n standing) (events : List Event) :
    Outlasts c (c.run events) t (n + standing.underway + furtherProbes t c events)
      (furtherProbes t c events) := by
  induction events generalizing c n standing with
  | nil => exact .goes pending trying.left rfl
  | cons e events ih =>
    have regular' := step_regular regular e
    have stopped' := (c.step_later e).stopped stopped
    have ends : ∀ {m r}, (c.step e).task? t = some ⟨.start m, .done r⟩ →
        ((c.step e).run events).task? t = some ⟨.start m, .done r⟩ ∧
          furtherProbes t (c.step e) events = 0 := fun task =>
      ⟨run_done regular'.toOrderly events (by simp) task,
        furtherProbes_over regular'.toOrderly task events⟩
    rw [furtherProbes, ← Nat.add_assoc]
    cases step_tried regular pending trying e with
    | goes pending' trying' all =>
      rw [← all]
      cases ih regular' stopped' pending' trying' with
      | goes pending'' left all' => exact .goes pending'' (mt (spent_step c e _).mpr left) all'
      | gaveUp task spent left =>
        exact .gaveUp task ((spent_step c e _).mp spent) (mt (spent_step c e _).mpr left)
      | refused busy none task =>
        have before := step_busy regular e stopped' busy
        exact .refused before (by rw [before.probesAgain_eq, none]) task
    | gaveUp all task spent left =>
      obtain ⟨ended, none⟩ := ends task
      rw [none]
      refine .gaveUp ended ((spent_step c e _).mp spent) (mt (spent_step c e _).mpr ?_)
      rwa [Nat.add_zero, ← all, Nat.add_sub_cancel]
    | ready busy probing task =>
      obtain ⟨job, w, at_work, _⟩ := busy
      cases at_work.symm.trans pending.task
      exact absurd at_work (regular.late stopped probing t n w)
    | refused busy task =>
      obtain ⟨ended, none⟩ := ends task
      exact .refused busy (by rw [busy.probesAgain_eq, none]) ended

/-- After the first further probe a start never gets to work again. -/
theorem run_not_busy (regular : Regular c) (stopped : c.stopped = true) (events : List Event)
    (further : 0 < furtherProbes t c events) : ¬ (c.run events).Busy t := by
  induction events generalizing c with
  | nil => cases further
  | cons e events ih =>
    by_cases busy : c.Busy t
    · rw [furtherProbes, busy.probesAgain_eq, Nat.zero_add] at further
      exact ih (step_regular regular e) ((c.step_later e).stopped stopped) further
    · exact fun later => busy (run_busy regular stopped (e :: events) later)

/-- With nobody else in line, a start at its rest begins its next probe as soon as it is resumed,
finds the client stopped and rests again, unless that was its last try. -/
theorem resume_rest (stopped : c.stopped = true) (free : c.holder = none) (alone : c.waiting = [])
    (task : c.task? t = some ⟨.start n, .resting⟩) (left : ¬ c.Spent (n + 1)) :
    c.resume t = c.stand t (.start (n + 1)) .resting := by
  let turned : Client := { c with holder := some t }
  have queues : c.resume t = turned.enter t (.start n) := by
    simp [resume, task, queue, free, turned]
  have enters : turned.enter t (.start n) =
      turned.conclude t (.start n) (.error (.notReady .stopped)) := if_pos stopped
  have released : turned.release.report (.notReady .stopped) = c := by
    have same : turned.release = { c with holder := none, waiting := [] } := by
      simp [turned, release, alone]
    rw [same]
    cases c
    cases free
    cases alone
    rfl
  rw [queues, enters]
  simp only [conclude, probed, released]
  exact if_neg (mod_cast left)

theorem run_rests (stopped : c.stopped = true) (free : c.holder = none) (alone : c.waiting = [])
    (task : c.task? t = some ⟨.start n, .resting⟩) (more : Nat) (left : ¬ c.Spent (n + more)) :
    (c.run (.replicate more (.resume t))).task? t = some ⟨.start (n + more), .resting⟩ ∧
      furtherProbes t c (.replicate more (.resume t)) = more := by
  induction more generalizing c n with
  | zero => exact ⟨task, rfl⟩
  | succ more ih =>
    have again := Pending.probesAgain_of_rest ⟨task, by simp⟩
    have rests := resume_rest stopped free alone task fun spent => left (spent.mono (by omega))
    have later := ih (c := c.stand t (.start (n + 1)) .resting) (n := n + 1) stopped free alone
      ((c.task?_stand ..).trans (if_pos rfl)) (by rwa [Nat.add_right_comm])
    rw [List.replicate_succ, furtherProbes, again, show c.step (.resume t) = _ from rests, later.2]
    refine ⟨?_, Nat.add_comm 1 more⟩
    rw [run, List.foldl_cons, show c.step (.resume t) = _ from rests]
    exact later.1.trans (by rw [Nat.add_right_comm, Nat.add_assoc])

/-- A start that is pending when the client is told to stop goes on until it has used up its
tries, unless the probe that it is at gets through; one with no limit never ends for itself.
At most one further probe begins if only one try is left. No further probe gets to work: each of
them finds that the client was stopped, and with nobody else in line the next one begins
whenever the start is resumed. -/
theorem pending_start_after_stop (reached : Reached c) (pending : Pending c t n standing)
    (clear : Bool) (events : List Event)
    (moment : d = (c.step (.invoke (.stop clear))).run events)
    {further : Nat} (begun : further = furtherProbes t (c.step (.invoke (.stop clear))) events) :
    Outlasts c d t (n + standing.underway + further) further ∧
      (c.Spent (n + standing.underway + 1) → further ≤ 1) ∧
      (0 < further → ∀ later, ¬ (d.run later).Busy t) ∧
      ∀ failed more, d.task? t = some ⟨.start failed, .resting⟩ → d.holder = none →
        d.waiting = [] → ¬ c.Spent (failed + more) →
          (d.run (.replicate more (.resume t))).task? t =
            some ⟨.start (failed + more), .resting⟩ ∧
          furtherProbes t d (.replicate more (.resume t)) = more := by
  have regular := reached.regular
  have regular' := step_regular regular (.invoke (.stop clear))
  have stopped := regular'.halted (c.step_stop_phase clear)
  have spent := spent_step c (.invoke (.stop clear))
  have pending' : Pending (c.step (.invoke (.stop clear))) t n standing :=
    pending.later regular _ (Nat.ne_of_lt (regular.known pending.task))
  have trying := step_tries regular (reached_tries reached) _ t n standing pending'
  have outlasts : Outlasts c d t (n + standing.underway + further) further := by
    rw [begun, moment]
    cases run_outlasts regular' stopped pending' trying events with
    | goes pending'' left all => exact .goes pending'' (mt (spent _).mpr left) all
    | gaveUp task used left => exact .gaveUp task ((spent _).mp used) (mt (spent _).mpr left)
    | refused busy none task =>
      obtain ⟨job, w, at_work, fills⟩ := busy
      cases at_work.symm.trans pending'.task
      exact .refused ⟨_, w, pending.task, rfl⟩ none task
  refine ⟨outlasts, fun last => ?_, fun some later => ?_,
    fun failed more task free alone left => ?_⟩
  · refine Nat.le_of_not_lt fun many => ?_
    cases outlasts with
    | @goes failed' standing' _ left all =>
      refine left (last.mono ?_)
      have one : standing'.underway ≤ 1 := by cases standing' <;> simp [Standing.underway]
      omega
    | gaveUp _ _ left => exact left (last.mono (by omega))
    | refused _ none _ => omega
  · rw [begun] at some
    have idle := run_not_busy regular' stopped events some
    rw [moment]
    exact fun busy => idle (run_busy (run_regular regular' events)
      ((run_later _ events).stopped stopped) later busy)
  · have told : d.stopped = true := by
      rw [moment]
      exact (run_later _ events).stopped stopped
    refine run_rests told free alone task more ?_
    rw [Spent, moment, (run_later _ events).options, (c.step_later _).options]
    exact left

namespace Sample

/-- A start may try again without limit. -/
def patient : Options := { options with readyRetry := -1 }

/-- The first probe has failed, and the start rests before the next one. -/
def refused : List Event := asking ++ [refusal]

end Sample

theorem pending_start_after_stop_in_sample : ∃ c d, Reached c ∧ Pending c 0 1 .resting ∧
    d = (c.step (.invoke (.stop false))).run (.replicate 3 (.resume 0)) ∧
    Outlasts c d 0 4 3 ∧ ¬ d.Busy 0 ∧
    ∀ more, furtherProbes 0 d (.replicate more (.resume 0)) = more := by
  obtain ⟨new, created⟩ : ∃ c, create Sample.patient "cluster.id" false 0 .empty = .ok c :=
    ⟨_, rfl⟩
  have reached : Reached (new.run Sample.refused) :=
    ⟨_, _, _, _, _, new, Sample.refused, created, rfl⟩
  have pending : Pending (new.run Sample.refused) 0 1 .resting := by
    cases created
    exact ⟨rfl, by simp⟩
  have limitless : ∀ tries, ¬ (new.run Sample.refused).Spent tries := by
    cases created
    exact fun _ spent => absurd spent.1 (by decide +kernel)
  let told := (new.run Sample.refused).step (.invoke (.stop false))
  have rests := run_rests (c := told) (t := 0) (n := 1) (by cases created; rfl)
    (by cases created; rfl) (by cases created; rfl) (by cases created; rfl) 3
    fun spent => limitless 4 ((spent_step _ _ 4).mp spent)
  have free : (told.run (.replicate 3 (.resume 0))).holder = none ∧
      (told.run (.replicate 3 (.resume 0))).waiting = [] := by
    cases created
    decide +kernel
  have outcome := pending_start_after_stop reached pending false (.replicate 3 (.resume 0)) rfl
    rests.2.symm
  refine ⟨_, _, reached, pending, rfl, outcome.1, outcome.2.2.1 (by decide) [], fun more => ?_⟩
  exact (outcome.2.2.2 4 more rests.1 free.1 free.2 (limitless _)).2

/-- A start that may try again without limit never ends once the client was told to stop, but
begins one probe after the other. -/
theorem start_never_ends_after_stop : ∃ c,
    create Sample.patient "cluster.id" false 0 .empty = .ok c ∧ ∀ more,
      (((c.run Sample.refused).step (.invoke (.stop false))).run
        (.replicate more (.resume 0))).task? 0 = some ⟨.start (1 + more), .resting⟩ ∧
      furtherProbes 0 ((c.run Sample.refused).step (.invoke (.stop false)))
        (.replicate more (.resume 0)) = more :=
  ⟨_, rfl, fun more => run_rests rfl rfl rfl rfl more fun spent =>
    absurd spent.1 (by decide +kernel)⟩

end Client

end ClusterClient
