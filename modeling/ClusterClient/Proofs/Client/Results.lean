import ClusterClient.Proofs.Client.Standings
/-!
What the work of a task comes to, and what a step does to the standing of a client that was not
told to stop: nothing, as long as it brings no work to its end and begins no start and no stop.
-/
namespace ClusterClient

/-- Whether the job tells only those who have asked for it what has come of it. -/
def Job.aside : Job → Bool
  | .loadData | .loadConfig | .heartbeat | .ask => true
  | _ => false

namespace Client

variable {c d : Client} {t : TaskId} {job : Job} {w : Work} {q : Query}

/-- What the outcome of a call makes of the client, and of the work that the call is for. -/
def reply (c : Client) (job : Job) (w : Work) (q : Query) (s : Sending) (choice : Nat)
    (outcome : Except Fault (MetaReply q.Value)) : Client × Progress :=
  let (estimates, turn) :=
    s.receive c.options.retryCount c.options.retryInterval c.directory.catalog choice c.estimates
      outcome
  let c := { c with estimates }
  match turn with
  | .resend s => (c, .more { w with slots := w.slots.set q (.calling s) })
  | .pause interval s => (c, .more { w with slots := w.slots.set q (.pausing interval s) })
  | .finish (.error e) => (c, .ended (.error e))
  | .finish (.ok reply) =>
    match reply.toExcept with
    | .error e => (c, .ended (.error e))
    | .ok v => c.advance job { w with slots := w.slots.set q (.done v) }

/-- What the work of the task comes to with this event, if it comes to its end. -/
def result? (c : Client) (t : TaskId) : Event → Option (Except Fault Payload)
  | .answer u q choice outcome =>
    match c.task? u with
    | some ⟨job, .working w⟩ =>
      match w.slots q with
      | .calling s =>
        match (c.reply job w q s choice outcome).2 with
        | .ended result => if u = t then some result else none
        | .more _ => none
      | _ => none
    | _ => none
  | _ => none

/-- All that the works of the task come to in a run, in order. -/
def results (t : TaskId) : Client → List Event → List (Except Fault Payload)
  | _, [] => []
  | c, e :: events => (c.result? t e).toList ++ results t (c.step e) events

theorem results_append (t : TaskId) (c : Client) (events more : List Event) :
    results t c (events ++ more) = results t c events ++ results t (c.run events) more := by
  induction events generalizing c with
  | nil => rfl
  | cons e events ih =>
    rw [List.cons_append, results, ih, results, List.append_assoc]
    rfl

theorem answer_proceeds {s : Sending} (calling : c.Calling t q job w s) (choice : Nat)
    (outcome : Except Fault (MetaReply q.Value)) :
    c.answer t q choice outcome =
      (c.reply job w q s choice outcome).1.proceed t job
        (c.reply job w q s choice outcome).2 := by
  simp only [answer, reply, calling.task, calling.slot]
  cases (s.receive c.options.retryCount c.options.retryInterval c.directory.catalog choice
    c.estimates outcome).2 with
  | resend s' => rfl
  | pause interval s' => rfl
  | finish result =>
    cases result with
    | error fault => rfl
    | ok reply =>
      dsimp only
      cases reply.toExcept with
      | error fault => rfl
      | ok v => rfl

theorem result?_of_calling {s : Sending} (calling : c.Calling t q job w s) (choice : Nat)
    (outcome : Except Fault (MetaReply q.Value)) :
    c.result? t (.answer t q choice outcome) =
      match (c.reply job w q s choice outcome).2 with
      | .ended result => some result
      | .more _ => none := by
  simp only [result?, calling.task, calling.slot, if_true]

theorem result?_of_ne {e : Event} (ne : t ≠ c.subject e) : c.result? t e = none := by
  cases e with
  | answer u q choice outcome =>
    have other : u ≠ t := fun eq => ne eq.symm
    simp only [result?, if_neg other]
    split
    · split
      · split <;> rfl
      · rfl
    · rfl
  | _ => rfl

theorem Built.watermark {hosts : List HostItem} {built : List Space} {ids : List SpaceId}
    {progress : Progress} (h : Built c job w hosts built ids d progress) :
    d.watermark = c.watermark ∨
      progress = .ended (.ok .nothing) ∧ d.watermark = w.remote.getD c.watermark := by
  obtain ⟨estimates, installed⟩ := c.install_eq (.ofList built) hosts
  cases h with
  | next id rest => exact .inl rfl
  | data _ => exact .inl (by rw [installed])
  | bare _ _ => exact .inr ⟨rfl, rfl⟩
  | configs _ _ => exact .inl (by rw [installed])

/-- The watermark is moved by the end of a work only, to the time that this work was told. -/
theorem Advancing.watermark {progress : Progress} (h : Advancing c job w d progress) :
    d.watermark = c.watermark ∨
      progress = .ended (.ok .nothing) ∧ d.watermark = w.remote.getD c.watermark := by
  cases h with
  | lists _ _ _ _ built _ => exact built.watermark
  | builds _ _ _ _ _ _ _ _ _ _ _ _ built => exact built.watermark
  | configures _ _ _ _ => exact .inr ⟨rfl, rfl⟩
  | _ => exact .inl rfl

/-- What the outcome of a call leaves as it was. -/
structure Replied (c : Client) (w : Work) (b : Client) (progress : Progress) : Prop where
  alike : Alike c b
  watermark : b.watermark = c.watermark ∨
    progress = .ended (.ok .nothing) ∧ b.watermark = w.remote.getD c.watermark

theorem reply_replied (c : Client) (job : Job) (w : Work) (q : Query) (s : Sending) (choice : Nat)
    (outcome : Except Fault (MetaReply q.Value)) :
    Replied c w (c.reply job w q s choice outcome).1 (c.reply job w q s choice outcome).2 := by
  unfold reply
  generalize s.receive c.options.retryCount c.options.retryInterval c.directory.catalog choice
    c.estimates outcome = turned
  obtain ⟨estimates, turn⟩ := turned
  have quiet : Alike c { c with estimates } := by constructor <;> rfl
  have calls : ∀ progress, Replied c w { c with estimates } progress := fun _ => ⟨quiet, .inl rfl⟩
  cases turn with
  | resend s' => exact calls _
  | pause interval s' => exact calls _
  | finish result =>
    cases result with
    | error fault => exact calls _
    | ok reply =>
      dsimp only
      cases reply.toExcept with
      | error fault => exact calls _
      | ok v =>
        have advancing := advance_advancing { c with estimates } job
          { w with slots := w.slots.set q (.done v) }
        have like := advancing.alike
        exact ⟨⟨like.options, like.listening, like.tasks, like.next, like.holder, like.waiting,
          like.phase, like.stopped, like.background, like.fatal⟩, advancing.watermark⟩

/-- The client stands as it did, and has taken note of nothing. -/
structure Unmoved (c d : Client) : Prop where
  phase : d.phase = c.phase
  stopped : d.stopped = c.stopped
  background : d.background = c.background
  watermark : d.watermark = c.watermark
  fatal : d.fatal = c.fatal

theorem Unmoved.trans {b : Client} (h : Unmoved b c) (h' : Unmoved c d) : Unmoved b d where
  phase := h'.phase.trans h.phase
  stopped := h'.stopped.trans h.stopped
  background := h'.background.trans h.background
  watermark := h'.watermark.trans h.watermark
  fatal := h'.fatal.trans h.fatal

theorem Alike.unmoved (h : Alike c d) (watermark : d.watermark = c.watermark) : Unmoved c d where
  phase := h.phase
  stopped := h.stopped
  background := h.background
  watermark := watermark
  fatal := h.fatal

theorem conclude_unmoved (c : Client) (t : TaskId) (aside : job.aside = true)
    (result : Except Fault Payload) : Unmoved c (c.conclude t job result) := by
  cases job with
  | loadData | loadConfig | heartbeat | ask => exact ⟨rfl, rfl, rfl, rfl, rfl⟩
  | _ => cases aside

theorem conclude_phase (c : Client) (t : TaskId) (other : ∀ n, job ≠ .start n)
    (result : Except Fault Payload) : (c.conclude t job result).phase = c.phase := by
  have reported : ∀ fault, (c.report fault).phase = c.phase := by
    intro fault
    obtain ⟨fatal, eq⟩ := c.report_eq fault
    rw [eq]
  cases job with
  | start n => exact absurd rfl (other n)
  | refresh =>
    cases result with
    | ok _ => rfl
    | error fault => exact reported fault
  | background told =>
    cases told <;> cases result with
    | ok _ => rfl
    | error fault => exact reported fault
  | _ => rfl

/-- A task that has its turn gets to work, if the client was not told to stop. -/
theorem Entry.begins_of_going (h : Entry c t job d) (going : c.stopped = false)
    (live : ∀ clear, job ≠ .stop clear) :
    d = c.stand t job (.working (.begin none (c.firstStage job))) := by
  cases h with
  | stops clear _ _ _ _ => exact absurd rfl (live clear)
  | refused _ stopped _ =>
    rw [going] at stopped
    cases stopped
  | begins _ _ => rfl

/-- The task is still at its job. -/
def Goes (d : Client) (t : TaskId) (job : Job) : Prop :=
  ∃ standing, d.task? t = some ⟨job, standing⟩ ∧ ∀ r, standing ≠ .done r

theorem goes_stand {standing : Standing} (live : ∀ r, standing ≠ .done r) :
    (d.stand t job standing).Goes t job :=
  ⟨standing, (d.task?_stand ..).trans (if_pos rfl), live⟩

theorem Queueing.stays (h : Queueing c t job d) (going : c.stopped = false)
    (live : ∀ clear, job ≠ .stop clear) : Unmoved c d ∧ d.Goes t job := by
  cases h with
  | waits u _ => exact ⟨⟨rfl, rfl, rfl, rfl, rfl⟩, goes_stand (by simp)⟩
  | turns _ entry =>
    rw [entry.begins_of_going going live]
    exact ⟨⟨rfl, rfl, rfl, rfl, rfl⟩, goes_stand (by simp)⟩

/-- What an event does to a client that was not told to stop. -/
inductive Proceeding (c d : Client) (e : Event) : Prop
  | keeps (kept : Unmoved c d) (none : c.result? (c.subject e) e = none)
      (goes : ∀ job standing, c.task? (c.subject e) = some ⟨job, standing⟩ →
        (∀ r, standing ≠ .done r) → (∀ told, job ≠ .background told) → d.Goes (c.subject e) job)
  | starts (eq : e = .invoke .start) (created : c.phase = .created)
      (kept : Unmoved { c with phase := .probing } d) (goes : d.Goes c.nextTask (.start 0))
  | stops (clear : Bool) (eq : e = .invoke (.stop clear)) (stopped : d.stopped = true)
  | concludes {job : Job} {w : Work} {b : Client} {result : Except Fault Payload}
      (task : c.task? (c.subject e) = some ⟨job, .working w⟩)
      (comes : c.result? (c.subject e) e = some result)
      (replied : Replied c w b (.ended result)) (eq : d = b.conclude (c.subject e) job result)

theorem Dialling.stays (h : Dialling c t q d) : Unmoved c d ∧ ∀ job standing,
    c.task? t = some ⟨job, standing⟩ → d.Goes t job := by
  cases h with
  | made before estimates s _ _ =>
    refine ⟨⟨rfl, rfl, rfl, rfl, rfl⟩, fun job standing task => ?_⟩
    cases before.symm.trans task
    exact goes_stand (by simp)

theorem Resuming.stays (h : Resuming c t d) (orderly : Orderly c) (going : c.stopped = false) :
    Unmoved c d ∧ ∀ job standing, c.task? t = some ⟨job, standing⟩ →
      (∀ told, job ≠ .background told) → d.Goes t job := by
  have live : ∀ {job standing}, c.task? t = some ⟨job, standing⟩ → ∀ clear, job ≠ .stop clear := by
    rintro _ standing task clear rfl
    rw [orderly.warned t clear standing task] at going
    cases going
  cases h with
  | enters before _ entry =>
    rw [entry.begins_of_going going (live before)]
    refine ⟨⟨rfl, rfl, rfl, rfl, rfl⟩, fun job standing task _ => ?_⟩
    cases before.symm.trans task
    exact goes_stand (by simp)
  | ends before =>
    refine ⟨⟨rfl, rfl, rfl, rfl, rfl⟩, fun job standing task front => ?_⟩
    cases before.symm.trans task
    exact absurd rfl (front true)
  | rested before queueing =>
    obtain ⟨kept, goes⟩ := queueing.stays going (live before)
    refine ⟨kept, fun job standing task _ => ?_⟩
    cases before.symm.trans task
    exact goes
  | joined before _ queueing =>
    obtain ⟨kept, goes⟩ := queueing.stays going (live before)
    refine ⟨kept, fun job standing task _ => ?_⟩
    cases before.symm.trans task
    exact goes

theorem Beginning.proceeds {op : Operation} (h : Beginning c op d) (orderly : Orderly c)
    (going : c.stopped = false) : Proceeding c d (.invoke op) := by
  have fresh := orderly.fresh c.nextTask (Nat.le_refl _)
  have numbered : Unmoved c c.numbered := ⟨rfl, rfl, rfl, rfl, rfl⟩
  have keeps : Unmoved c d → Proceeding c d (.invoke op) := fun kept =>
    .keeps kept rfl fun _ _ task _ _ => nomatch fresh.symm.trans task
  cases h with
  | start created queueing =>
    obtain ⟨kept, goes⟩ := queueing.stays going (by simp)
    exact .starts rfl created ⟨kept.phase, kept.stopped, kept.background, kept.watermark,
      kept.fatal⟩ goes
  | joins clear b _ =>
    obtain ⟨tasks, eq⟩ := c.halting.tellBackground_tasks b
    exact .stops clear rfl (by rw [eq]; rfl)
  | stop clear none queueing =>
    exact .stops clear rfl (queueing.later.stopped rfl)
  | refresh queueing => exact keeps (numbered.trans (queueing.stays going (by simp)).1)
  | loadData queueing => exact keeps (numbered.trans (queueing.stays going (by simp)).1)
  | loadConfig queueing => exact keeps (numbered.trans (queueing.stays going (by simp)).1)
  | _ => exact keeps ⟨rfl, rfl, rfl, rfl, rfl⟩

/-- A call is due to be answered, or else an answer to it is of no consequence. -/
theorem answer_proceeding (c : Client) (t : TaskId) (q : Query) (choice : Nat)
    (outcome : Except Fault (MetaReply q.Value)) :
    Proceeding c (c.answer t q choice outcome) (.answer t q choice outcome) := by
  by_cases due : ∃ job w s, c.Calling t q job w s
  · obtain ⟨job, w, s, calling⟩ := due
    have comes := result?_of_calling calling choice outcome
    have replied := c.reply_replied job w q s choice outcome
    rw [answer_proceeds calling]
    generalize c.reply job w q s choice outcome = reply at comes replied ⊢
    obtain ⟨b, progress⟩ := reply
    cases progress with
    | ended result => exact .concludes calling.task comes replied rfl
    | more w' =>
      have kept : b.watermark = c.watermark := replied.watermark.resolve_right (by simp)
      have like := replied.alike
      refine .keeps ⟨like.phase, like.stopped, like.background, kept, like.fatal⟩ comes ?_
      intro _ _ task _ _
      cases calling.task.symm.trans task
      exact goes_stand (by simp)
  · have none : c.result? t (.answer t q choice outcome) = none := by
      simp only [result?]
      split
      · rename_i job w task
        split
        · rename_i s slot
          exact absurd ⟨job, w, s, task, slot⟩ due
        · rfl
      · rfl
    have same : c.answer t q choice outcome = c :=
      (c.answer_cases t q choice outcome).resolve_right fun ⟨job, w, s, calling, _⟩ =>
        due ⟨job, w, s, calling⟩
    rw [same]
    exact .keeps ⟨rfl, rfl, rfl, rfl, rfl⟩ none fun _ standing task live _ =>
      ⟨standing, task, live⟩

theorem step_proceeding (orderly : Orderly c) (going : c.stopped = false) (e : Event) :
    Proceeding c (c.step e) e := by
  have nothing : c.step e = c → c.result? (c.subject e) e = none → Proceeding c (c.step e) e := by
    intro same none
    rw [same]
    exact .keeps ⟨rfl, rfl, rfl, rfl, rfl⟩ none fun _ standing task live _ =>
      ⟨standing, task, live⟩
  cases e with
  | invoke op => exact (c.invoke_beginning op).proceeds orderly going
  | answer t q choice outcome => exact c.answer_proceeding t q choice outcome
  | call t q =>
    rcases c.call_cases t q with same | dialling
    · exact nothing same rfl
    · exact .keeps dialling.stays.1 rfl fun job standing task _ _ =>
        dialling.stays.2 job standing task
  | wake t q =>
    rcases c.wake_cases t q with same | dialling
    · exact nothing same rfl
    · exact .keeps dialling.stays.1 rfl fun job standing task _ _ =>
        dialling.stays.2 job standing task
  | resume t =>
    rcases c.resume_cases t with same | resuming
    · exact nothing same rfl
    · obtain ⟨kept, goes⟩ := resuming.stays orderly going
      exact .keeps kept rfl fun job standing task _ front => goes job standing task front

end Client

end ClusterClient
