import ClusterClient.Proofs.Spawning
import Mathlib.Data.List.Induction
/-!
The probes of a start, up to its end. They come one at a time, and end with the first that gets
through, or with the one that was the last try. Until then the client has nothing to show for
them but the fatal faults among what they came to.
-/
namespace ClusterClient.Client

variable {c d : Client} {t : TaskId} {n : Nat} {standing : Standing}

/-- A refresh that somebody asked for has not come to its end. -/
def Refreshing (c : Client) (u : TaskId) : Prop :=
  ∃ standing, c.task? u = some ⟨.refresh, standing⟩ ∧ ∀ r, standing ≠ .done r

/-- The client probes, with nobody about who refreshes it or has told it to stop. -/
structure Undisturbed (c : Client) : Prop extends Tidy c, Lone c where
  phase : c.phase = .probing
  going : c.stopped = false
  calm : ∀ u, ¬ c.Refreshing u

/-- While a client probes, nobody begins a refresh of his own. -/
theorem step_refreshing (regular : Regular c) (e : Event)
    (ignored : e = .invoke .refresh → c.phase = .probing) {u : TaskId}
    (h : (c.step e).Refreshing u) : c.Refreshing u := by
  obtain ⟨standing, after, live⟩ := h
  have kind : ∀ {job}, (c.step e).KeepsJob u job → job = .refresh := by
    rintro job ⟨job', standing', task, kept⟩
    cases task.symm.trans after
    cases kept with
    | same => rfl
  cases before : c.task? u with
  | some task =>
    obtain ⟨job, standing'⟩ := task
    obtain rfl := kind (step_keepsJob regular e before)
    refine ⟨standing', before, ?_⟩
    rintro r rfl
    cases (step_done regular.toOrderly e (by simp) before).symm.trans after
    exact live r rfl
  | none =>
    rcases known_or_begun c e after before with ⟨op, rfl, rfl⟩ | ⟨eq, _⟩
    · have job := kind (c.invoke_beginning op).keepsJob
      cases op with
      | refresh =>
        have ended : (c.step (.invoke .refresh)).task? c.nextTask =
            some ⟨.refresh, .done (.ok .nothing)⟩ := by
          simp [step, invoke, ignored rfl]
        cases ended.symm.trans after
        exact absurd rfl (live _)
      | _ => cases job
    · cases eq

theorem Undisturbed.step (h : Undisturbed c) (e : Event) (probing : (c.step e).phase = .probing)
    (going : (c.step e).stopped = false) : Undisturbed (c.step e) where
  toTidy := step_tidy h.toTidy e
  toLone := step_lone h.toRegular h.toLone e
  phase := probing
  going := going
  calm u refreshing := h.calm u (step_refreshing h.toRegular e (fun _ => h.phase) refreshing)

theorem Undisturbed.nobody (h : Undisturbed c) (u : TaskId) : ¬ c.Serves u :=
  h.toLone.nobody (by simp [h.phase]) h.going u

/-- Of all the jobs at work only the one start is more than an affair of those who asked for it. -/
theorem Undisturbed.aside (h : Undisturbed c) (pending : Pending c t n standing) {u : TaskId}
    {job : Job} {w : Work} (task : c.task? u = some ⟨job, .working w⟩) (ne : t ≠ u) :
    job.aside = true := by
  cases job with
  | start m =>
    exact absurd (h.single t u ⟨n, standing, pending.task, pending.live⟩ ⟨m, _, task, by simp⟩) ne
  | refresh => exact absurd ⟨_, task, by simp⟩ (h.calm u)
  | background told => exact absurd ⟨told, _, task⟩ (h.nobody u)
  | stop clear => cases (h.warned u clear _ task).symm.trans h.going
  | _ => rfl

/-- A job that somebody asked for is told no time that would move the watermark. -/
theorem Undisturbed.untold (h : Undisturbed c) {u : TaskId} {job : Job} {w : Work}
    (task : c.task? u = some ⟨job, .working w⟩) (aside : job.aside = true) : w.remote = none := by
  refine (h.fit u job w task).untold ?_
  cases job with
  | heartbeat => exact .inr ((h.suits u _ w task).heartbeat rfl)
  | loadData | loadConfig | ask => exact .inl rfl
  | _ => cases aside

/-- What a step does to a start that is pending, by what the probe comes to in it. -/
inductive Probing (c d : Client) (t : TaskId) (n : Nat) : Option (Except Fault Payload) → Prop
  | goes {standing : Standing} (pending : Pending d t n standing) (kept : Unmoved c d) :
    Probing c d t n none
  | rests (fault : Fault) (pending : Pending d t (n + 1) .resting) (left : ¬ c.Spent (n + 1))
      (kept : Unmoved (c.report fault) d) : Probing c d t n (some (.error fault))
  | givesUp (fault : Fault) (spent : c.Spent (n + 1))
      (task : d.task? t = some ⟨.start (n + 1),
        .done (.error (.notReady (.unavailable (n + 1) fault.message)))⟩)
      (kept : Unmoved { c.report fault with phase := .created } d) :
    Probing c d t n (some (.error fault))
  | ready (payload : Payload)
      (task : d.task? t = some ⟨.start n, .done (.ok .nothing)⟩) (running : d.phase = .running)
      (background : d.background = some c.nextTask) (serves : d.Serves c.nextTask)
      (fatal : d.fatal = c.fatal) : Probing c d t n (some (.ok payload))

theorem report_congr {b : Client} (like : Alike c b) (watermark : b.watermark = c.watermark)
    (fault : Fault) : Unmoved (c.report fault) (b.release.report fault) := by
  unfold report
  split
  · exact ⟨like.phase, like.stopped, like.background, watermark,
      congrArg (· ++ [fault]) like.fatal⟩
  · exact ⟨like.phase, like.stopped, like.background, watermark, like.fatal⟩

theorem report_options (c : Client) (fault : Fault) : (c.report fault).options = c.options := by
  obtain ⟨fatal, eq⟩ := c.report_eq fault
  rw [eq]

/-- A probe that has come to its end. -/
theorem concluded_probing {b : Client} {w : Work} {result : Except Fault Payload}
    (known : t ≠ c.nextTask) (probing : c.phase = .probing)
    (replied : Replied c w b (.ended result)) :
    Probing c (b.conclude t (.start n) result) t n (some result) := by
  have like := replied.alike
  cases result with
  | error fault =>
    have kept := report_congr like (replied.watermark.resolve_right (by simp)) fault
    have options : (b.release.report fault).options = c.options :=
      (report_options _ _).trans like.options
    simp only [conclude, probed]
    split
    · rename_i spent
      rw [options] at spent
      exact .givesUp fault (mod_cast spent) ((task?_finish ..).trans (if_pos rfl))
        ⟨rfl, kept.stopped, kept.background, kept.watermark, kept.fatal⟩
    · rename_i left
      rw [options] at left
      exact .rests fault ⟨(task?_stand ..).trans (if_pos rfl), by simp⟩ (mod_cast left)
        ⟨kept.phase, kept.stopped, kept.background, kept.watermark, kept.fatal⟩
  | ok payload =>
    have still : b.release.phase = .probing := like.phase.trans probing
    have next : b.nextTask = c.nextTask := like.next
    simp only [conclude, probed, if_pos still]
    refine .ready payload ((task?_finish ..).trans (if_pos rfl)) rfl (congrArg some next) ?_
      like.fatal
    refine ⟨false, .resting, (task?_finish ..).trans ((if_neg known.symm).trans ?_)⟩
    exact (task?_stand ..).trans (if_pos next.symm)

theorem step_probing (h : Undisturbed c) (pending : Pending c t n standing) (e : Event)
    (goes_on : ∀ clear, e ≠ .invoke (.stop clear)) :
    Probing c (c.step e) t n (c.result? t e) := by
  have regular := h.toRegular
  by_cases own : t = c.subject e
  · subst own
    cases step_proceeding regular.toOrderly h.going e with
    | keeps kept none goes =>
      obtain ⟨standing', task, live⟩ := goes _ _ pending.task pending.live (by simp)
      rw [none]
      exact .goes ⟨task, live⟩ kept
    | starts _ created _ _ => cases h.phase.symm.trans created
    | stops clear eq _ => exact absurd eq (goes_on clear)
    | concludes task comes replied eq =>
      cases task.symm.trans pending.task
      rw [comes, eq]
      exact concluded_probing (Nat.ne_of_lt (regular.known task)) h.phase replied
  · rw [result?_of_ne own]
    refine .goes (pending.later regular e own) ?_
    cases step_proceeding regular.toOrderly h.going e with
    | keeps kept _ _ => exact kept
    | starts _ created _ _ => cases h.phase.symm.trans created
    | stops clear eq _ => exact absurd eq (goes_on clear)
    | @concludes job w b result task _ replied eq =>
      have aside := h.aside pending task own
      have watermark : b.watermark = c.watermark := by
        rcases replied.watermark with same | ⟨_, told⟩
        · exact same
        · rw [told, h.untold task aside]
          rfl
      rw [eq]
      exact (replied.alike.unmoved watermark).trans (conclude_unmoved b _ aside result)

/-- The client has nothing to show for its probes but the fatal ones of the faults. -/
structure Unready (c d : Client) (faults : List Fault) : Prop where
  idle : ∀ u, ¬ d.Serves u
  background : d.background = none
  watermark : d.watermark = c.watermark
  fatal : d.fatal = c.fatal ++ faults.filter Fault.isFatal

/-- A start may be called: nobody has done so already, or is about to refresh. -/
structure Startable (c : Client) : Prop where
  reached : Reached c
  created : c.phase = .created
  going : c.stopped = false
  calm : ∀ u, ¬ c.Refreshing u

/-- The start has not come to its end, and its probes so far have come to these faults. -/
structure Underway (c d : Client) (t : TaskId) (faults : List Fault) (standing : Standing) :
    Prop where
  undisturbed : Undisturbed d
  options : d.options = c.options
  pending : Pending d t faults.length standing
  trying : Trying d faults.length standing
  watermark : d.watermark = c.watermark
  fatal : d.fatal = c.fatal ++ faults.filter Fault.isFatal

theorem Lone.background_eq_none (h : Lone c) (going : c.stopped = false)
    (nobody : ∀ u, ¬ c.Serves u) : c.background = none := by
  cases held : c.background with
  | none => rfl
  | some u => exact absurd (h.held going u held) (nobody u)

theorem Underway.unready {faults : List Fault} (h : Underway c d t faults standing) :
    Unready c d faults where
  idle := h.undisturbed.nobody
  background := h.undisturbed.background_eq_none h.undisturbed.going h.undisturbed.nobody
  watermark := h.watermark
  fatal := h.fatal

theorem report_fatal (c : Client) (fault : Fault) :
    (c.report fault).fatal = c.fatal ++ [fault].filter Fault.isFatal := by
  unfold report
  cases fatal : fault.isFatal with
  | true => simp [fatal]
  | false => simp [fatal]

theorem report_noted (c : Client) (fault : Fault) :
    (c.report fault).phase = c.phase ∧ (c.report fault).stopped = c.stopped ∧
      (c.report fault).watermark = c.watermark := by
  obtain ⟨fatal, eq⟩ := c.report_eq fault
  rw [eq]
  exact ⟨rfl, rfl, rfl⟩

/-- A result comes of work only. -/
theorem working_of_result {e : Event} {result : Except Fault Payload}
    (comes : c.result? t e = some result) : ∃ job w, c.task? t = some ⟨job, .working w⟩ := by
  cases e with
  | answer u q choice outcome =>
    simp only [result?] at comes
    split at comes
    · rename_i job w task
      split at comes
      · split at comes
        · split at comes
          · rename_i eq
            exact ⟨job, w, eq ▸ task⟩
          · cases comes
        · cases comes
      · cases comes
    · cases comes
  | _ => cases comes

theorem Reached.tidy (h : Reached c) : Tidy c := by
  obtain ⟨_, _, _, _, _, new, events, created, rfl⟩ := h
  exact run_tidy (create_tidy created) events

theorem Reached.lone (h : Reached c) : Lone c := by
  obtain ⟨_, _, _, _, _, new, events, created, rfl⟩ := h
  exact run_lone (create_regular created) (create_lone created) events

theorem Startable.begins (h : Startable c) : ∃ standing,
    Underway c (c.step (.invoke .start)) c.nextTask [] standing ∧ standing.underway = 1 := by
  have tidy := step_tidy h.reached.tidy (.invoke .start)
  have lone := step_lone h.reached.regular h.reached.lone (.invoke .start)
  have options := (c.step_later (.invoke .start)).options
  have calm := fun u => mt (step_refreshing h.reached.regular (.invoke .start) nofun (u := u))
    (h.calm u)
  have begun := c.invoke_beginning .start
  rw [show c.step (.invoke .start) = c.invoke .start from rfl] at tidy lone options calm ⊢
  generalize c.invoke .start = d at tidy lone options calm begun ⊢
  cases begun with
  | declined _ other _ _ => exact absurd h.created other
  | start _ queueing =>
    obtain ⟨kept, standing, task, live⟩ := queueing.stays h.going (by simp)
    have pending : Pending d c.nextTask 0 standing := ⟨task, live⟩
    obtain ⟨trying, one⟩ := (queueing.tried (not_spent_zero _)).pending pending
    refine ⟨standing, ⟨⟨tidy, lone, kept.phase, kept.stopped.trans h.going, calm⟩, options,
      pending, trying, kept.watermark, ?_⟩, by omega⟩
    exact kept.fatal.trans (List.append_nil _).symm

/-- While the start goes on, it is under way with one more fault or with none. -/
theorem Underway.next {faults : List Fault} (h : Underway c d t faults standing) (e : Event)
    (going : ∀ clear, e ≠ .invoke (.stop clear)) (open_ : (d.step e).isOver t = false) :
    ∃ faults' standing', Underway c (d.step e) t faults' standing' ∧
      faults'.map .error = faults.map .error ++ (d.result? t e).toList ∧
      faults'.length + standing'.underway =
        faults.length + standing.underway + d.probesAgain t e := by
  have options := (d.step_later e).options.trans h.options
  have tried := step_tried h.undisturbed.toRegular h.pending h.trying e
  have probing := step_probing h.undisturbed h.pending e going
  generalize d.result? t e = result at probing ⊢
  cases probing with
  | @goes standing' pending kept =>
    obtain ⟨trying, all⟩ := tried.pending pending
    have undisturbed := h.undisturbed.step e (kept.phase.trans h.undisturbed.phase)
      (kept.stopped.trans h.undisturbed.going)
    exact ⟨faults, standing', ⟨undisturbed, options, pending, trying,
      kept.watermark.trans h.watermark, kept.fatal.trans h.fatal⟩, by simp, all⟩
  | rests fault pending _ kept =>
    obtain ⟨phase, stopped, watermark⟩ := d.report_noted fault
    have length : (faults ++ [fault]).length = faults.length + 1 := by simp
    rw [← length] at pending
    obtain ⟨trying, all⟩ := tried.pending pending
    have undisturbed := h.undisturbed.step e (kept.phase.trans (phase.trans h.undisturbed.phase))
      (kept.stopped.trans (stopped.trans h.undisturbed.going))
    refine ⟨faults ++ [fault], .resting, ⟨undisturbed, options, pending, trying,
      kept.watermark.trans (watermark.trans h.watermark), ?_⟩, by simp, all⟩
    rw [kept.fatal, report_fatal, h.fatal, List.filter_append, List.append_assoc]
  | givesUp fault _ task _ => simp [isOver, task] at open_
  | ready payload task _ _ _ _ => simp [isOver, task] at open_

theorem KeepsJob.over_of_step (regular : Regular c) {job : Job} (h : c.KeepsJob t job)
    (front : ∀ told, job ≠ .background told) {e : Event} (open_ : (c.step e).isOver t = false) :
    c.isOver t = false := by
  obtain ⟨job', standing, task, kept⟩ := h
  have front' : ∀ told, job' ≠ .background told := by
    rintro told rfl
    cases kept with
    | same => exact front told rfl
    | told told => exact front told rfl
  cases standing with
  | done r =>
    have ended := step_done regular.toOrderly e front' task
    simp [isOver, ended] at open_
  | _ => simp [isOver, task]

/-- These are the faults that the probes of the start have come to, out of all that it has begun. -/
structure Came (c : Client) (events : List Event) (faults : List Fault) (standing : Standing) :
    Prop where
  results : results c.nextTask c events = faults.map .error
  begun : faults.length + standing.underway = 1 + furtherProbes c.nextTask c events

/-- A probe that has come to something is not resting, and no further one was begun. -/
theorem Pending.last_probe (h : Pending c t n standing) {e : Event}
    {result : Except Fault Payload} (comes : c.result? t e = some result) :
    standing.underway = 1 ∧ c.probesAgain t e = 0 := by
  obtain ⟨job, w, task⟩ := working_of_result comes
  cases task.symm.trans h.task
  exact ⟨rfl, Busy.probesAgain_eq ⟨_, w, task, rfl⟩ e⟩

theorem Came.last {events : List Event} {faults : List Fault}
    (h : Came c events faults standing)
    (pending : Pending (c.run events) c.nextTask faults.length standing) {e : Event}
    {result : Except Fault Payload}
    (comes : (c.run events).result? c.nextTask e = some result) :
    Client.results c.nextTask c (events ++ [e]) = faults.map .error ++ [result] ∧
      faults.length + 1 = 1 + furtherProbes c.nextTask c (events ++ [e]) := by
  obtain ⟨one, none⟩ := pending.last_probe comes
  have begun := h.begun
  constructor
  · rw [results_append, h.results, Client.results, Client.results, comes]
    rfl
  · rw [furtherProbes_append, furtherProbes, furtherProbes, none]
    omega

theorem run_underway (h : Startable c) (events : List Event)
    (going : ∀ clear, .invoke (.stop clear) ∉ events)
    (open_ : (c.run (.invoke .start :: events)).isOver c.nextTask = false) :
    ∃ faults standing, Underway c (c.run (.invoke .start :: events)) c.nextTask faults standing ∧
      Came c (.invoke .start :: events) faults standing := by
  have regular := h.reached.regular
  obtain ⟨standing, begins, one⟩ := h.begins
  induction events using List.reverseRecOn with
  | nil => exact ⟨[], standing, begins, rfl, by rw [one]; rfl⟩
  | append_singleton events e ih =>
    rw [← List.cons_append, run_concat] at open_
    have kept := run_keepsJob (step_regular regular (.invoke .start)) events begins.pending.task
    have before := kept.over_of_step (run_regular regular (.invoke .start :: events)) (by simp)
      open_
    obtain ⟨faults, standing', underway, came, all⟩ :=
      ih (fun clear here => going clear (List.mem_append_left _ here)) before
    obtain ⟨faults', standing'', underway', came', all'⟩ := underway.next e
      (fun clear eq => going clear (by simp [eq])) open_
    refine ⟨faults', standing'', ?_, ?_, ?_⟩
    · rw [← List.cons_append, run_concat]
      exact underway'
    · rw [← List.cons_append, results_append, came, came', results, results, List.append_nil]
    · rw [← List.cons_append, furtherProbes_append, all', all, Nat.add_assoc]
      rfl

/-- What has come of a start in a run that does not go beyond its end. Each of its probes but the
one that is under way has come to a fault; if one has got through, or one was the last try, that
was the end. -/
inductive Probed (c : Client) (events : List Event) (d : Client) : Prop
  | goes {faults : List Fault} {standing : Standing}
      (came : results c.nextTask c events = faults.map .error)
      (begun : faults.length + standing.underway = 1 + furtherProbes c.nextTask c events)
      (pending : Pending d c.nextTask faults.length standing) (left : ¬ c.Spent faults.length)
      (phase : d.phase = .probing) (unready : Unready c d faults)
  | gaveUp {faults : List Fault} {last : Fault}
      (came : results c.nextTask c events = (faults ++ [last]).map .error)
      (begun : faults.length + 1 = 1 + furtherProbes c.nextTask c events)
      (limited : 0 ≤ c.options.readyRetry.toInt)
      (spent : (faults.length + 1 : Nat) = max c.options.readyRetry.toInt 1)
      (task : d.task? c.nextTask = some ⟨.start (faults.length + 1),
        .done (.error (.notReady (.unavailable (faults.length + 1) last.message)))⟩)
      (again : Startable d) (unready : Unready c d (faults ++ [last]))
  | ready {faults : List Fault} {payload : Payload}
      (came : results c.nextTask c events = faults.map .error ++ [.ok payload])
      (begun : faults.length + 1 = 1 + furtherProbes c.nextTask c events)
      (left : ¬ c.Spent faults.length)
      (task : d.task? c.nextTask = some ⟨.start faults.length, .done (.ok .nothing)⟩)
      (running : d.phase = .running)
      (one : ∃ u, d.background = some u ∧ ∀ v, d.Serves v ↔ v = u)
      (fatal : d.fatal = c.fatal ++ faults.filter Fault.isFatal)
      (reloaded : ReloadedIn c c.nextTask events d)
      (unmoved : c.options.role = .tool → d.watermark = c.watermark)

theorem Underway.probed {events : List Event} {faults : List Fault}
    (h : Underway c d c.nextTask faults standing) (came : Came c events faults standing) :
    Probed c events d := by
  refine .goes came.results came.begun h.pending ?_ h.undisturbed.phase h.unready
  rw [Spent, ← h.options]
  exact h.trying.left

theorem Reached.step (h : Reached c) (e : Event) : Reached (c.step e) := by
  obtain ⟨_, _, _, _, _, new, events, created, rfl⟩ := h
  exact ⟨_, _, _, _, _, new, events ++ [e], created, (run_concat new events e).symm⟩

theorem Reached.run (h : Reached c) (events : List Event) : Reached (c.run events) :=
  run_keeps (P := Reached) (fun _ e h => h.step e) h events

/-- A tool does not move the watermark with a probe that gets through, nor with one before. -/
theorem ReloadedIn.unmoved (h : Startable c) {events : List Event}
    (going : ∀ clear, .invoke (.stop clear) ∉ events)
    (reloaded : ReloadedIn c c.nextTask (.invoke .start :: events) d)
    (tool : c.options.role = .tool) : d.watermark = c.watermark := by
  obtain ⟨before, first, after, last, n, split, _, begun, _, heard⟩ := reloaded
  -- the moment at which the probe began is one of a start that was under way
  obtain ⟨seen, prefixed, moment⟩ : ∃ seen, seen <+: events ∧
      before ++ [first] = .invoke .start :: seen := by
    cases before with
    | nil =>
      cases split
      exact ⟨[], List.nil_prefix, rfl⟩
    | cons e before =>
      cases split
      exact ⟨before ++ [first], ⟨after ++ [last], by simp⟩, rfl⟩
  rw [moment] at begun heard
  obtain ⟨faults, standing, underway, _⟩ :=
    run_underway h seen (fun clear here => going clear (prefixed.subset here))
      (by simp [isOver, begun])
  have still : (c.run (.invoke .start :: seen)).options.role = .tool := by
    rw [underway.options]
    exact tool
  exact (heard.untimed still).trans underway.watermark

/-- After its last try a start leaves the client as one that may be started. -/
theorem Underway.gaveUp {b : Client} {faults : List Fault} {fault : Fault}
    (h : Underway c b t faults standing) (reached : Reached d) (calm : ∀ u, ¬ d.Refreshing u)
    (kept : Unmoved { b.report fault with phase := .created } d) :
    Startable d ∧ Unready c d (faults ++ [fault]) := by
  obtain ⟨_, stopped, watermark⟩ := b.report_noted fault
  have going : d.stopped = false := kept.stopped.trans (stopped.trans h.undisturbed.going)
  have nobody := reached.lone.nobody (by simp [kept.phase]) going
  refine ⟨⟨reached, kept.phase, going, calm⟩, nobody,
    reached.lone.background_eq_none going nobody,
    kept.watermark.trans (watermark.trans h.watermark), ?_⟩
  have noted : d.fatal = (b.report fault).fatal := kept.fatal
  rw [noted, report_fatal, h.fatal, List.filter_append, List.append_assoc]

theorem Pending.not_over (h : Pending c t n standing) : c.isOver t = false := by
  have live := h.live
  cases standing with
  | done r => exact absurd rfl (live r)
  | _ => simp [isOver, h.task]

/-- The tries that a start has may be no more than those that it has used up. -/
theorem spent_exactly (spent : c.Spent (n + 1)) (left : ¬ c.Spent n) :
    0 ≤ c.options.readyRetry.toInt ∧ (n + 1 : Nat) = max c.options.readyRetry.toInt 1 := by
  obtain ⟨limited, used⟩ := spent
  refine ⟨limited, ?_⟩
  have more : ¬ max c.options.readyRetry.toInt 1 ≤ n := fun used => left ⟨limited, used⟩
  omega

/-- The probe that makes the client ready is one of the start, and has read everything. -/
theorem Underway.reloaded {events : List Event} {e : Event} {faults : List Fault}
    {result : Except Fault Payload} (h : Startable c)
    (underway : Underway c (c.run (.invoke .start :: events)) c.nextTask faults standing)
    (comes : (c.run (.invoke .start :: events)).result? c.nextTask e = some result)
    (running : ((c.run (.invoke .start :: events)).step e).phase = .running) :
    ReloadedIn c c.nextTask (.invoke .start :: (events ++ [e]))
      ((c.run (.invoke .start :: events)).step e) := by
  have own : c.nextTask = (c.run (.invoke .start :: events)).subject e := by
    refine Classical.byContradiction fun ne => ?_
    cases (result?_of_ne ne).symm.trans comes
  have idle : ¬ c.Busy c.nextTask := h.reached.regular.fresh_idle
  have ready := reloaded_of_ready h.reached.regular (.invoke .start :: events) e (own ▸ idle)
    (by simp [underway.undisturbed.phase]) running
  rwa [← own] at ready

/-- The step that brings a start to its end. -/
theorem Underway.ends {events : List Event} {e : Event} {faults : List Fault} (h : Startable c)
    (underway : Underway c (c.run (.invoke .start :: events)) c.nextTask faults standing)
    (came : Came c (.invoke .start :: events) faults standing)
    (going : ∀ clear, .invoke (.stop clear) ∉ events ++ [e])
    (ended : ((c.run (.invoke .start :: events)).step e).isOver c.nextTask = true) :
    Probed c (.invoke .start :: (events ++ [e])) ((c.run (.invoke .start :: events)).step e) := by
  have regular := underway.undisturbed.toRegular
  have reached := (h.reached.run (.invoke .start :: events)).step e
  have left : ¬ c.Spent faults.length := by
    rw [Spent, ← underway.options]
    exact underway.trying.left
  have live : ∀ {m standing'},
      ¬ Pending ((c.run (.invoke .start :: events)).step e) c.nextTask m standing' := by
    intro m standing' pending
    cases pending.not_over.symm.trans ended
  have probing := step_probing underway.undisturbed underway.pending e
    fun clear eq => going clear (by simp [eq])
  cases comes : (c.run (.invoke .start :: events)).result? c.nextTask e with
  | none =>
    rw [comes] at probing
    cases probing with
    | goes pending _ => exact absurd pending live
  | some result =>
    obtain ⟨results, begun⟩ := came.last underway.pending comes
    rw [comes] at probing
    cases probing with
    | rests fault pending _ _ => exact absurd pending live
    | givesUp fault spent task kept =>
      rw [Spent, underway.options] at spent
      obtain ⟨limited, all⟩ := spent_exactly spent left
      have calm := fun u => mt (step_refreshing regular e (fun _ => underway.undisturbed.phase)
        (u := u)) (underway.undisturbed.calm u)
      obtain ⟨again, unready⟩ := underway.gaveUp reached calm kept
      exact .gaveUp (by rw [List.map_append]; exact results) begun limited all task again unready
    | ready payload task running background serves fatal =>
      have ready := underway.reloaded h comes running
      have one : ∀ v, Serves _ v ↔ v = (c.run (.invoke .start :: events)).nextTask := fun v =>
        ⟨fun sv => reached.lone.alone v _ sv serves, fun eq => eq ▸ serves⟩
      exact .ready results begun left task running ⟨_, background, one⟩
        (fatal.trans underway.fatal) ready (ready.unmoved h going)

theorem run_probed (h : Startable c) (events : List Event)
    (going : ∀ clear, .invoke (.stop clear) ∉ events)
    (open_ : ∀ seen, seen <+: events → seen ≠ events →
      (c.run (.invoke .start :: seen)).isOver c.nextTask = false) :
    Probed c (.invoke .start :: events) (c.run (.invoke .start :: events)) := by
  cases ended : (c.run (.invoke .start :: events)).isOver c.nextTask with
  | false =>
    obtain ⟨faults, standing, underway, came⟩ := run_underway h events going ended
    exact underway.probed came
  | true =>
    rcases List.eq_nil_or_concat' events with rfl | ⟨before, e, rfl⟩
    · obtain ⟨standing, begins, _⟩ := h.begins
      cases begins.pending.not_over.symm.trans ended
    · have prefixed : before <+: before ++ [e] := ⟨[e], rfl⟩
      obtain ⟨faults, standing, underway, came⟩ := run_underway h before
        (fun clear here => going clear (prefixed.subset here)) (open_ before prefixed (by simp))
      rw [← List.cons_append, run_concat] at ended ⊢
      exact underway.ends h came going ended

end ClusterClient.Client
