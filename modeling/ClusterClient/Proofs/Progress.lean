import ClusterClient.Proofs.Client.Lines
import ClusterClient.Proofs.Readiness
/-!
Runs in which a start gets through. All that is in line may come to its end before the start is
called; then as many of its probes may fail as it has tries, and the next one is told that all is
well.
-/
namespace ClusterClient.Client

variable {c d : Client} {t : TaskId} {n : Nat} {w : Work} {q : Query} {job : Job}
  {options : Options} {remote : Option Int64}

/-- Nobody begins anything in the run. -/
def Uncalled (events : List Event) : Prop := ∀ op, .invoke op ∉ events

theorem Uncalled.append {events more : List Event} (h : Uncalled events) (h' : Uncalled more) :
    Uncalled (events ++ more) :=
  fun op here => (List.mem_append.mp here).elim (h op) (h' op)

/-- The client stands as it did, with the same line. -/
structure StandsBy (c d : Client) : Prop where
  options : d.options = c.options
  phase : d.phase = c.phase
  stopped : d.stopped = c.stopped
  holder : d.holder = c.holder
  waiting : d.waiting = c.waiting

theorem StandsBy.trans {b : Client} (h : StandsBy b c) (h' : StandsBy c d) : StandsBy b d where
  options := h'.options.trans h.options
  phase := h'.phase.trans h.phase
  stopped := h'.stopped.trans h.stopped
  holder := h'.holder.trans h.holder
  waiting := h'.waiting.trans h.waiting

theorem Alike.standsBy (h : Alike c d) : StandsBy c d :=
  ⟨h.options, h.phase, h.stopped, h.holder, h.waiting⟩

theorem call_made (task : c.task? t = some ⟨job, .working w⟩) (idle : w.slots q = .idle)
    (listed : q ∈ w.stage.queries) : ∃ estimates s, c.step (.call t q) =
      ({ c with estimates } : Client).setSlot t job w q (.calling s) := by
  let s := Sending.toMetaService q.method true c.estimates.metaLeader
  exact ⟨s.attempt c.estimates, s, by simp [step, call, task, idle, listed, s]⟩

theorem calling_setSlot (c : Client) (t : TaskId) (job : Job) (w : Work) (q : Query)
    (s : Sending) : (c.setSlot t job w q (.calling s)).Calling t q job
      { w with slots := w.slots.set q (.calling s) } s :=
  ⟨(task?_stand ..).trans (if_pos rfl), slots_set_self ..⟩

/-- A call is made, and answered at once. -/
def telling (t : TaskId) (q : Query) (v : q.Value) : List Event :=
  [.call t q, .answer t q 0 (.ok (.ok v))]

theorem uncalled_telling (t : TaskId) (q : Query) (v : q.Value) : Uncalled (telling t q v) := by
  simp [Uncalled, telling]

theorem run_telling (task : c.task? t = some ⟨job, .working w⟩) (idle : w.slots q = .idle)
    (listed : q ∈ w.stage.queries) (v : q.Value) :
    ∃ b : Client, StandsBy c b ∧ c.run (telling t q v) =
      (b.advance job { w with slots := w.slots.set q (.done v) }).1.proceed t job
        (b.advance job { w with slots := w.slots.set q (.done v) }).2 := by
  obtain ⟨estimates, s, calls⟩ := call_made task idle listed
  let called := ({ c with estimates } : Client).setSlot t job w q (.calling s)
  have slots : (w.slots.set q (.calling s)).set q (.done v) = w.slots.set q (.done v) := by
    funext q'
    by_cases eq : q' = q
    · subst eq
      rw [slots_set_self, slots_set_self]
    · rw [slots_set_of_ne _ _ eq, slots_set_of_ne _ _ eq, slots_set_of_ne _ _ eq]
  have replied : called.reply job { w with slots := w.slots.set q (.calling s) } q s 0
      (.ok (.ok v)) = called.advance job { w with slots := w.slots.set q (.done v) } := by
    rw [← slots]
    rfl
  refine ⟨called, ⟨rfl, rfl, rfl, rfl, rfl⟩, ?_⟩
  have calling := calling_setSlot { c with estimates } t job w q s
  have answered := answer_proceeds calling 0 (.ok (.ok v))
  rw [replied] at answered
  rw [telling, run, List.foldl_cons, calls]
  exact answered

/-- A call that is still to be answered can be got under way. -/
theorem run_calling (task : c.task? t = some ⟨job, .working w⟩) (listed : q ∈ w.stage.queries)
    (unanswered : ∀ v, w.slots q ≠ .done v) :
    ∃ events w' s, Uncalled events ∧ (c.run events).Calling t q job w' s ∧
      StandsBy c (c.run events) := by
  cases slot : w.slots q with
  | idle =>
    obtain ⟨estimates, s, calls⟩ := call_made task slot listed
    refine ⟨[.call t q], { w with slots := w.slots.set q (.calling s) }, s, by simp [Uncalled], ?_⟩
    rw [show c.run [.call t q] = c.step (.call t q) from rfl, calls]
    exact ⟨calling_setSlot _ t job w q s, rfl, rfl, rfl, rfl, rfl⟩
  | calling s => exact ⟨[], w, s, by simp [Uncalled], ⟨task, slot⟩, rfl, rfl, rfl, rfl, rfl⟩
  | pausing interval s =>
    have wakes : c.run [.wake t q] = ({ c with estimates := s.attempt c.estimates } :
        Client).setSlot t job w q (.calling s) := by
      simp only [run, List.foldl, Client.step, wake, task, slot]
    refine ⟨[.wake t q], { w with slots := w.slots.set q (.calling s) }, s, by simp [Uncalled], ?_⟩
    rw [wakes]
    exact ⟨calling_setSlot _ t job w q s, rfl, rfl, rfl, rfl, rfl⟩
  | done v => exact absurd slot (unanswered v)

/-- All work can come to its end with a call that is refused. -/
theorem run_refused (task : c.task? t = some ⟨job, .working w⟩) (open_ : w.Open) :
    ∃ events b, Uncalled events ∧ StandsBy c b ∧
      c.run events = b.conclude t job (.error (.remote .unknown)) := by
  obtain ⟨q, listed, unanswered⟩ := open_
  obtain ⟨events, w', s, uncalled, calling, same⟩ := run_calling task listed unanswered
  refine ⟨events ++ [.answer t q 0 (.ok (.error .unknown))], c.run events,
    uncalled.append (by simp [Uncalled]), same, ?_⟩
  rw [run_concat]
  exact answer_proceeds calling 0 (.ok (.error .unknown))

/-- A start whose probes have failed that often is at this work, and nobody else is in line. -/
structure ProbesAt (c : Client) (options : Options) (t : TaskId) (n : Nat) (w : Work) : Prop where
  task : c.task? t = some ⟨.start n, .working w⟩
  options : c.options = options
  phase : c.phase = .probing
  going : c.stopped = false
  turn : c.holder = some t
  alone : c.waiting = []

/-- The start has come to its end with a client that is ready, after so many probes failed. -/
structure Readied (c : Client) (t : TaskId) (n : Nat) : Prop where
  phase : c.phase = .running
  task : c.task? t = some ⟨.start n, .done (.ok .nothing)⟩

theorem ProbesAt.more (h : ProbesAt c options t n w) (same : StandsBy c d) (w' : Work) :
    ProbesAt (d.proceed t (.start n) (.more w')) options t n w' where
  task := (task?_stand ..).trans (if_pos rfl)
  options := same.options.trans h.options
  phase := same.phase.trans h.phase
  going := same.stopped.trans h.going
  turn := same.holder.trans h.turn
  alone := same.waiting.trans h.alone

theorem conclude_readied (phase : c.phase = .probing) (t : TaskId) (n : Nat) (payload : Payload) :
    Readied (c.conclude t (.start n) (.ok payload)) t n := by
  have still : c.release.phase = .probing := phase
  rw [conclude, probed, if_pos still]
  exact ⟨rfl, (task?_finish ..).trans (if_pos rfl)⟩

theorem ProbesAt.settled (h : ProbesAt c options t n w) (same : StandsBy c d) (w' : Work) :
    Readied ((d.settled w').1.proceed t (.start n) (d.settled w').2) t n := by
  have phase : d.phase = .probing := same.phase.trans h.phase
  rw [settled_eq]
  refine conclude_readied ?_ t n .nothing
  exact phase

/-- A heartbeat tells of no cluster, and of no change yet. -/
theorem ProbesAt.beat {r : HeartbeatRequest}
    (h : ProbesAt c options t n (.begin remote (.beat r))) :
    ProbesAt (c.run (telling t .heartbeat ⟨0, 0⟩)) options t n (.begin (some 0) .listing) := by
  obtain ⟨b, same, told⟩ :=
    run_telling (q := .heartbeat) h.task rfl (List.mem_singleton.mpr rfl) ⟨0, 0⟩
  have adopts : b.adopt 0 = (b, .ok ()) := by simp [adopt]
  have goes_on : b.advance (.start n) { Work.begin remote (.beat r) with
      slots := (Work.begin remote (.beat r)).slots.set .heartbeat (.done ⟨0, 0⟩) } =
      (b, .more (.begin (some 0) .listing)) := by
    simp [advance, Work.begin, slots_set_self, beaten, adopts]
  rw [told, goes_on]
  exact h.more same _

/-- The lists of spaces and hosts are asked for, and there are no spaces. -/
def spaceless (remote : Option Int64) : Work :=
  { Work.begin remote .listing with slots := Slots.idle.set .spaces (.done []) }

theorem ProbesAt.spaces (h : ProbesAt c options t n (.begin remote .listing)) :
    ProbesAt (c.run (telling t .spaces [])) options t n (spaceless remote) := by
  obtain ⟨b, same, told⟩ := run_telling (q := .spaces) h.task rfl (List.mem_cons_self ..) []
  have waits : b.advance (.start n) { Work.begin remote .listing with
      slots := (Work.begin remote .listing).slots.set .spaces (.done []) } =
      (b, .more (spaceless remote)) := by
    simp [advance, spaceless, Work.begin, slots_set_self, slots_set_of_ne, Slots.idle]
  rw [told, waits]
  exact h.more same _

/-- There are no hosts either: all data are loaded. -/
theorem ProbesAt.hosts (h : ProbesAt c options t n (spaceless remote)) :
    let d := c.run (telling t .hosts [])
    if options.skipConfig then Readied d t n
    else ProbesAt d options t n (.begin remote (.configs options.role.configModule)) := by
  intro d
  obtain ⟨b, same, told⟩ := run_telling (q := .hosts) h.task rfl
    (by simp [spaceless, Work.begin, Stage.queries]) []
  let whole : Work := { spaceless remote with
    slots := (spaceless remote).slots.set .hosts (.done []) }
  let loads := b.install (.ofList []) []
  have same' : StandsBy c loads := same.trans (b.install_alike (.ofList []) []).standsBy
  have built : b.advance (.start n) whole = loads.loaded (.start n) whole := by
    simp [advance, whole, loads, spaceless, Work.begin, slots_set_self, slots_set_of_ne,
      spaceBuilt]
  rw [loaded, if_neg (by simp), same'.options, h.options] at built
  rw [show d = _ from told, built]
  split
  · exact h.settled same' whole
  · exact h.more same' _

/-- There is nothing to configure. -/
theorem ProbesAt.configs {scope : ConfigModule}
    (h : ProbesAt c options t n (.begin remote (.configs scope))) :
    Readied (c.run (telling t .configs [])) t n := by
  obtain ⟨b, same, told⟩ :=
    run_telling (q := .configs) h.task rfl (List.mem_singleton.mpr rfl) []
  let whole : Work := { Work.begin remote (.configs scope) with
    slots := (Work.begin remote (.configs scope)).slots.set .configs (.done []) }
  have settles : b.advance (.start n) whole = (b.configure []).settled whole := by
    simp [advance, whole, Work.begin, slots_set_self]
  obtain ⟨news, _, configured⟩ := b.configure_eq []
  have same' : StandsBy b (b.configure []) := by
    rw [configured]
    exact ⟨rfl, rfl, rfl, rfl, rfl⟩
  rw [told, settles]
  exact h.settled (same.trans same') whole

/-- A probe that is about to list the spaces can get through, whatever time it was told. -/
theorem ProbesAt.lists (h : ProbesAt c options t n (.begin remote .listing)) :
    ∃ events, Uncalled events ∧ Readied (c.run events) t n := by
  have listed := h.spaces.hosts
  have uncalled := (uncalled_telling t .spaces []).append (uncalled_telling t .hosts [])
  rw [← run_append] at listed
  split at listed
  · exact ⟨_, uncalled, listed⟩
  · refine ⟨_, uncalled.append (uncalled_telling t .configs []), ?_⟩
    rw [run_append]
    exact listed.configs

/-- The start begins its next probe, after so many have failed. -/
def Probes (c : Client) (options : Options) (t : TaskId) (n : Nat) : Prop :=
  ∃ r, ProbesAt c options t n (.begin none (if options.role = .tool then .listing else .beat r))

theorem probes_of_begun (task : d.task? t =
      some ⟨.start n, .working (.begin none (c.firstStage (.start n)))⟩)
    (options : d.options = c.options) (phase : d.phase = .probing) (going : d.stopped = false)
    (turn : d.holder = some t) (alone : d.waiting = []) : Probes d c.options t n :=
  ⟨c.heartbeatRequest, task, options, phase, going, turn, alone⟩

theorem Probes.gets_through (h : Probes c options t n) :
    ∃ events, Uncalled events ∧ Readied (c.run events) t n := by
  obtain ⟨r, h⟩ := h
  split at h
  · exact h.lists
  · obtain ⟨events, uncalled, ready⟩ := h.beat.lists
    refine ⟨_, (uncalled_telling t .heartbeat ⟨0, 0⟩).append uncalled, ?_⟩
    rw [run_append]
    exact ready

/-- A probe that is not the last one can fail, and the start goes on to the next one. -/
theorem Probes.fails (h : Probes c options t n) (left : ¬ c.Spent (n + 1)) :
    ∃ events, Uncalled events ∧ Probes (c.run events) options t (n + 1) := by
  obtain ⟨r, h⟩ := h
  obtain ⟨events, b, uncalled, same, refused⟩ := run_refused h.task (Work.open_begin _ _)
  let rested := b.release.stand t (.start (n + 1)) .resting
  have rests : c.run events = rested := by
    have left : ¬ (0 ≤ b.options.readyRetry.toInt ∧
        max b.options.readyRetry.toInt 1 ≤ (n : Int) + 1) := by
      rw [same.options]
      exact left
    rw [refused]
    exact if_neg left
  have turn : rested.holder = none := by
    rw [show rested.holder = b.waiting.head? from rfl, same.waiting, h.alone]
    rfl
  have going : rested.stopped = false := same.stopped.trans h.going
  have resumes : rested.step (.resume t) = ({ rested with holder := some t }).stand t
      (.start (n + 1)) (.working (.begin none (rested.firstStage (.start (n + 1))))) := by
    have task : rested.task? t = some ⟨.start (n + 1), .resting⟩ :=
      (task?_stand ..).trans (if_pos rfl)
    simp only [Client.step, resume, task, queue, turn, enter, going, Bool.false_eq_true, if_false]
    rfl
  refine ⟨events ++ [.resume t], uncalled.append (by simp [Uncalled]), ?_⟩
  rw [run_concat, rests, resumes, ← h.options, ← same.options]
  refine probes_of_begun (c := rested) ((task?_stand ..).trans (if_pos rfl)) rfl
    (same.phase.trans h.phase) going rfl ?_
  rw [show Client.waiting _ = b.waiting.tail from rfl, same.waiting, h.alone]
  rfl

theorem Reached.lined (h : Reached c) : Lined c := by
  obtain ⟨_, _, _, _, _, new, events, created, rfl⟩ := h
  exact run_lined (create_regular created) (create_lined created) events

theorem Startable.opens (h : Startable c) (free : c.holder = none) :
    Probes (c.step (.invoke .start)) c.options c.nextTask 0 := by
  have going := h.going
  have begins : c.step (.invoke .start) =
      ({ c.numbered with phase := .probing, holder := some c.nextTask }).stand c.nextTask
        (.start 0) (.working (.begin none (c.firstStage (.start 0)))) := by
    simp [step, invoke, h.created, queue, free, enter, going, numbered]
    rfl
  rw [begins]
  exact probes_of_begun ((task?_stand ..).trans (if_pos rfl)) rfl rfl going rfl
    (h.reached.lined.free free)

/-- A start that has the turn can go through as many probes that fail as it may. -/
theorem Startable.probes (h : Startable c) (free : c.holder = none) (left : ¬ c.Spent n) :
    ∃ events, Uncalled events ∧
      Probes (c.run (.invoke .start :: events)) c.options c.nextTask n := by
  induction n with
  | zero => exact ⟨[], by simp [Uncalled], h.opens free⟩
  | succ n ih =>
    obtain ⟨events, uncalled, probes⟩ := ih fun spent => left (spent.mono (Nat.le_succ n))
    have options : (c.run (.invoke .start :: events)).options = c.options :=
      (run_later c (.invoke .start :: events)).options
    obtain ⟨more, uncalled', probes'⟩ := probes.fails (by rwa [Spent, options])
    refine ⟨events ++ more, uncalled.append uncalled', ?_⟩
    rw [← List.cons_append, run_append]
    exact probes'

theorem Startable.aside (h : Startable c) (task : c.task? t = some ⟨job, .working w⟩) :
    job.aside = true := by
  cases job with
  | start n => exact absurd ⟨n, _, task, by simp⟩ (h.reached.orderly.nobody_starts h.created t)
  | refresh => exact absurd ⟨_, task, by simp⟩ (h.calm t)
  | background told =>
    exact absurd ⟨told, _, task⟩ (h.reached.lone.nobody (by simp [h.created]) h.going t)
  | stop clear => cases (h.reached.orderly.warned t clear _ task).symm.trans h.going
  | _ => rfl

/-- What was begun before makes no difference to whether a start may be called. -/
theorem Startable.step (h : Startable c) (e : Event) (calm : ∀ op, e ≠ .invoke op) :
    Startable (c.step e) := by
  have kept : (c.step e).phase = c.phase ∧ (c.step e).stopped = c.stopped := by
    cases step_proceeding h.reached.orderly h.going e with
    | keeps kept _ _ => exact ⟨kept.phase, kept.stopped⟩
    | starts eq _ _ _ => exact absurd eq (calm _)
    | stops clear eq _ => exact absurd eq (calm _)
    | @concludes job w b result task _ replied eq =>
      have kept := conclude_unmoved b (c.subject e) (h.aside task) result
      rw [eq]
      exact ⟨kept.phase.trans replied.alike.phase, kept.stopped.trans replied.alike.stopped⟩
  exact ⟨h.reached.step e, kept.1.trans h.created, kept.2.trans h.going, fun u refreshing =>
    h.calm u (step_refreshing h.reached.regular e (fun eq => absurd eq (calm _)) refreshing)⟩

theorem Startable.run (h : Startable c) {events : List Event} (uncalled : Uncalled events) :
    Startable (c.run events) := by
  induction events generalizing c with
  | nil => exact h
  | cons e events ih =>
    exact ih (h.step e fun op eq => uncalled op (by simp [eq]))
      fun op here => uncalled op (List.mem_cons_of_mem e here)

/-- The turn can go to the next one in line. -/
def HandsOn (c : Client) : Prop :=
  ∃ events, Uncalled events ∧ (c.run events).holder = c.waiting.head? ∧
    (c.run events).waiting = c.waiting.tail

theorem Startable.ends_cycle (h : Startable c) (cycles : c.Cycles t) : HandsOn c := by
  obtain ⟨job, w, task, cycles⟩ := cycles
  have live := (h.reached.regular.apt _ _ _ task).worker
  obtain ⟨events, b, uncalled, same, refused⟩ :=
    run_refused task (h.reached.tidy.fit t job w task).open_
  obtain ⟨turn, rest⟩ :=
    (b.conclude_ending t job (.error (.remote .unknown))).hands_on live cycles
  refine ⟨events, uncalled, ?_⟩
  rw [refused, turn, rest, same.waiting]
  exact ⟨rfl, rfl⟩

theorem Startable.hands_on (h : Startable c) (held : c.holder = some t) : HandsOn c := by
  rcases h.reached.lined.turn t held with ⟨job, task⟩ | cycles
  · have live : ∀ clear, job ≠ .stop clear := by
      rintro clear rfl
      cases (h.reached.orderly.warned t clear _ task).symm.trans h.going
    have enters : c.step (.resume t) =
        c.stand t job (.working (.begin none (c.firstStage job))) := by
      simp only [Client.step, resume, task, if_pos held]
      exact (enter_entry c t job).begins_of_going h.going live
    have begun : (c.step (.resume t)).Cycles t := by
      rw [enters]
      exact cycles_stand (h.reached.regular.apt _ _ _ task)
    obtain ⟨events, uncalled, turn, rest⟩ := (h.step (.resume t) (by simp)).ends_cycle begun
    have waiting : (c.step (.resume t)).waiting = c.waiting := by
      rw [enters]
      rfl
    rw [waiting] at turn rest
    exact ⟨.resume t :: events, by simpa [Uncalled] using uncalled, turn, rest⟩
  · exact h.ends_cycle cycles

/-- All that are in line can come to their end, one after the other. -/
theorem Startable.drains (h : Startable c) :
    ∃ events, Uncalled events ∧ (c.run events).holder = none := by
  generalize line : c.waiting = waiting
  induction waiting generalizing c with
  | nil =>
    cases held : c.holder with
    | none => exact ⟨[], by simp [Uncalled], held⟩
    | some t =>
      obtain ⟨events, uncalled, turn, _⟩ := h.hands_on held
      rw [line] at turn
      exact ⟨events, uncalled, turn⟩
  | cons u rest ih =>
    cases held : c.holder with
    | none =>
      rw [h.reached.lined.free held] at line
      cases line
    | some t =>
      obtain ⟨events, uncalled, _, next⟩ := h.hands_on held
      rw [line] at next
      obtain ⟨more, uncalled', free⟩ := ih (h.run uncalled) next
      exact ⟨events ++ more, uncalled.append uncalled', by rwa [run_append]⟩

/-- Once all that was begun before has come to its end, a start may be called that gets through
with the first of its probes, or with any later one that it may try. -/
theorem Startable.may_succeed (h : Startable c) (left : ¬ c.Spent n) : ∃ before events,
    Uncalled before ∧ Uncalled events ∧
      Readied ((c.run before).run (.invoke .start :: events)) (c.run before).nextTask n := by
  obtain ⟨before, uncalled, free⟩ := h.drains
  have same : (c.run before).options = c.options := (run_later c before).options
  obtain ⟨events, fails, probes⟩ :=
    (h.run uncalled).probes free (show ¬ (c.run before).Spent n by rwa [Spent, same])
  obtain ⟨more, gets, ready⟩ := probes.gets_through
  refine ⟨before, events ++ more, uncalled, fails.append gets, ?_⟩
  rw [← List.cons_append, run_append]
  exact ready

end ClusterClient.Client
