import ClusterClient.Proofs.Attempts
import ClusterClient.Table.Lemmas
/-!
How often a request to one host is tried, when it rests, what it comes to and what is counted
for it, all told by the outcomes of its attempts.
-/
namespace ClusterClient

variable {ρ : Type} [Reply ρ]

/-- The outcome is an answer that reports a changed leader. -/
def moved : Except Fault ρ → Bool
  | .error _ => false
  | .ok reply => Reply.status reply == .leaderChanged

/-- The number of the last attempt, out of at most `limit + 1`. -/
def lastAttempt (limit : Nat) (outcome : Nat → Except Fault ρ) : Nat :=
  ((List.range (limit + 1)).find? fun n => settles (outcome n)).getD limit

theorem lastAttempt_spec (limit : Nat) (outcome : Nat → Except Fault ρ) :
    lastAttempt limit outcome ≤ limit ∧
      (∀ n < lastAttempt limit outcome, settles (outcome n) = false) ∧
      (settles (outcome (lastAttempt limit outcome)) = true ∨
        lastAttempt limit outcome = limit) := by
  unfold lastAttempt
  cases found : (List.range (limit + 1)).find? fun n => settles (outcome n) with
  | none =>
    have unsettled : ∀ n < limit + 1, settles (outcome n) = false := by
      simpa using found
    exact ⟨le_refl _, fun n before => unsettled n (Nat.lt_succ_of_lt before), .inr rfl⟩
  | some k =>
    obtain ⟨settled, within, before⟩ := List.find?_range_eq_some.mp found
    have within := List.mem_range.mp within
    exact ⟨Nat.le_of_lt_succ within, fun n earlier => by simpa using before n earlier,
      .inl settled⟩

/-- What was counted between two readings, with calls of one method only. -/
structure Stats.Counted (before after : Stats) (method : String)
    (calls again failures changes : Nat) : Prop where
  sent : after.sent = before.sent + calls
  retries : after.retries = before.retries + again
  failed : after.failed = before.failed + failures
  leaderChanged : after.leaderChanged = before.leaderChanged + changes
  methods : ∀ m, after.methods.getD m 0 =
    before.methods.getD m 0 + if m = method then calls else 0

namespace Stats.Counted

variable {before middle after : Stats} {method : String} {a b c d a' b' c' d' : Nat}

theorem trans (first : Counted before middle method a b c d)
    (second : Counted middle after method a' b' c' d') :
    Counted before after method (a + a') (b + b') (c + c') (d + d') := by
  constructor
  · rw [second.sent, first.sent, Nat.add_assoc]
  · rw [second.retries, first.retries, Nat.add_assoc]
  · rw [second.failed, first.failed, Nat.add_assoc]
  · rw [second.leaderChanged, first.leaderChanged, Nat.add_assoc]
  · intro m
    rw [second.methods, first.methods]
    split <;> omega

theorem countSent (before : Stats) (method : String) :
    Counted before (before.countSent method) method 1 0 0 0 := by
  refine ⟨rfl, rfl, rfl, rfl, fun m => ?_⟩
  simp only [Stats.countSent, Table.getD, Table.get?_modify]
  split <;> simp [*]

theorem countRetry (before : Stats) (method : String) :
    Counted before before.countRetry method 0 1 0 0 :=
  ⟨rfl, rfl, rfl, rfl, by simp [Stats.countRetry]⟩

theorem tally (before : Stats) (method : String) (outcome : Except Fault ρ) :
    Counted before ((ClusterClient.tally outcome).foldl Stats.count before) method 0 0
      (if !outcome.isOk then 1 else 0) (if moved outcome then 1 else 0) := by
  cases outcome with
  | error fault => exact ⟨rfl, rfl, rfl, rfl, by simp [ClusterClient.tally, count, countFailed]⟩
  | ok reply =>
    by_cases changed : Reply.status reply = .leaderChanged
    · simp only [ClusterClient.tally, moved, changed]
      exact ⟨rfl, rfl, rfl, rfl, by simp [count, countLeaderChanged]⟩
    · simp only [ClusterClient.tally, moved, if_neg changed, beq_iff_eq]
      exact ⟨rfl, rfl, rfl, rfl, by simp⟩

end Stats.Counted

/-- The attempts `n` to `k`, told by their outcomes. -/
structure Retried (outcome : Nat → Except Fault ρ) (interval n k : Nat) (method : String)
    (before : Stats) (log : List (Attempt ρ)) : Prop where
  outcomes : log.map Attempt.outcome = (List.range' n (k + 1 - n)).map outcome
  pauses : log.map Attempt.pause? = (List.range' n (k + 1 - n)).map fun m =>
    if decide (m < k) && !(outcome m).isOk then some interval else none
  result : log.getLast?.bind Attempt.result? = some ((outcome k).mapError Sending.callFailure)
  counted : ∃ a, log.getLast? = some a ∧ before.Counted a.left.stats method (k - n) (k - n)
    ((List.range' n (k + 1 - n)).countP fun m => !(outcome m).isOk)
    ((List.range' n (k + 1 - n)).countP fun m => moved (outcome m))

namespace Retried

variable {w : Circumstances ρ} {outcome : Nat → Except Fault ρ} {limit k : Nat} {s : Sending}
  {e : Estimates}

theorem last (given : w.outcome = fun n _ => outcome n)
    (last : settles (outcome s.retries) = true ∨ s.retries = limit) :
    Retried outcome w.interval s.retries s.retries s.method e.stats (w.attempts limit s e) := by
  have last' : settles (w.outcome s.retries s.host) = true ∨ limit ≤ s.retries := by
    rw [given]
    exact last.imp_right ge_of_eq
  obtain ⟨turned, counted⟩ := Circumstances.attempt_last e last'
  simp only [given] at turned counted
  rw [Circumstances.attempts_last last']
  constructor
  · simp [Circumstances.attempt, given]
  · simp [Attempt.pause?, turned]
  · simp [Attempt.result?, turned]
  · refine ⟨w.attempt limit s e, rfl, ?_⟩
    rw [counted]
    simpa [List.countP_singleton] using
      Stats.Counted.tally e.stats s.method (outcome s.retries)

/-- One attempt more in front. -/
theorem again (given : w.outcome = fun n _ => outcome n)
    (unsettled : settles (outcome s.retries) = false) (left : s.retries < limit)
    (before : s.retries < k)
    (rest : Retried outcome w.interval (s.retries + 1) k s.method (w.follow s e).2.stats
      (w.attempts limit (w.follow s e).1 (w.follow s e).2)) :
    Retried outcome w.interval s.retries k s.method e.stats (w.attempts limit s e) := by
  have unsettled' : settles (w.outcome s.retries s.host) = false := by rw [given]; exact unsettled
  obtain ⟨pauses, next⟩ := Circumstances.attempt_again e unsettled' left
  have range : List.range' s.retries (k + 1 - s.retries) =
      s.retries :: List.range' (s.retries + 1) (k + 1 - (s.retries + 1)) := by
    rw [← List.range'_succ]
    congr 1
    omega
  have attempted : (w.attempt limit s e).outcome = outcome s.retries := by
    simp only [Circumstances.attempt, given]
  obtain ⟨a, final, counted⟩ := rest.counted
  have final' : (w.attempts limit s e).getLast? = some a := by
    rw [Circumstances.attempts_again next, List.getLast?_cons, final]
    rfl
  constructor
  · rw [Circumstances.attempts_again next, range, List.map_cons, List.map_cons, attempted,
      rest.outcomes]
  · rw [Circumstances.attempts_again next, range, List.map_cons, List.map_cons, pauses,
      rest.pauses, given, decide_eq_true before, Bool.true_and]
  · rw [final', ← final]
    exact rest.result
  · refine ⟨a, final', ?_⟩
    have first := (Stats.Counted.tally e.stats s.method (outcome s.retries)).trans
      ((Stats.Counted.countRetry _ _).trans (.countSent _ _))
    rw [Circumstances.follow_stats, given] at counted
    have all := first.trans counted
    rw [range, List.countP_cons, List.countP_cons]
    convert all using 1 <;> omega

theorem attempts (given : w.outcome = fun n _ => outcome n) (within : k ≤ limit)
    (unsettled : ∀ m < k, settles (outcome m) = false)
    (final : settles (outcome k) = true ∨ k = limit) (s : Sending) (e : Estimates)
    (ahead : s.retries ≤ k) :
    Retried outcome w.interval s.retries k s.method e.stats (w.attempts limit s e) := by
  obtain ⟨d, rfl⟩ := Nat.exists_eq_add_of_le ahead
  -- on the number of attempts that are still to be followed by another one
  induction d generalizing s e with
  | zero => exact .last given final
  | succ d ih =>
    have more : s.retries < s.retries + (d + 1) := by omega
    have same : s.retries + (d + 1) = s.retries + 1 + d := by omega
    refine .again given (unsettled _ more) (by omega) more ?_
    rw [same] at within unsettled final ⊢
    exact ih (w.follow s e).1 (w.follow s e).2 within unsettled final (Nat.le_add_right _ _)

end Retried

theorem text_of_callFailure (fault : Fault) :
    ∃ cause, Sending.callFailure fault = .rpcFailed cause ∧ cause.text = match fault with
      | .rpcFailed own => own.text
      | other => other.message := by
  cases fault <;> exact ⟨_, rfl, rfl⟩

/-- A request is tried until an answer settles it or no attempt is left, one attempt after the
other. Only calls without an answer are followed by a pause, which is as long as it is said to
be, and what came of the last attempt is the result. -/
theorem Circumstances.retry_law (w : Circumstances ρ) (outcome : Nat → Except Fault ρ)
    (limit : Nat) (method : String) (route : Route) (host : Host) (e : Estimates) :
    let k := lastAttempt limit outcome
    let heard := (List.range (k + 1)).map outcome
    let log := { w with outcome := fun n _ => outcome n }.send limit method route host e
    log.length = k + 1 ∧
      log.map Attempt.outcome = heard ∧
      log.head?.map Attempt.sending = some ⟨method, route, host, 0⟩ ∧
      log.IsChain (fun a b => a.next? = some b.start) ∧
      log.map Attempt.pause? = (List.range (k + 1)).map (fun n =>
        if decide (n < k) && !(outcome n).isOk then some w.interval else none) ∧
      ∃ a result, log.getLast? = some a ∧ a.result? = some result ∧
        (∀ reply, outcome k = .ok reply → result = .ok reply) ∧
        (∀ fault, outcome k = .error fault → ∃ cause, result = .error (.rpcFailed cause) ∧
          cause.text = match fault with
            | .rpcFailed own => own.text
            | other => other.message) ∧
        e.stats.Counted a.left.stats method (k + 1) k (heard.countP fun r => !r.isOk)
          (heard.countP moved) := by
  intro k heard log
  obtain ⟨within, unsettled, final⟩ := lastAttempt_spec limit outcome
  let s : Sending := ⟨method, route, host, 0⟩
  have retried : Retried outcome w.interval 0 k method (s.attempt e).stats log :=
    Retried.attempts (w := { w with outcome := fun n _ => outcome n }) rfl within unsettled final s
      (s.attempt e) (Nat.zero_le _)
  have range : List.range' 0 (k + 1 - 0) = List.range (k + 1) := (List.range_eq_range' ..).symm
  have outcomes := retried.outcomes
  have pauses := retried.pauses
  obtain ⟨a, last, counted⟩ := retried.counted
  have result := retried.result
  rw [range] at outcomes pauses counted
  rw [last] at result
  refine ⟨?_, outcomes, ?_, attempts_chain, pauses, a, _, last, result, ?_, ?_, ?_⟩
  · simpa [heard] using congrArg List.length outcomes
  · rw [show log.head? = _ from attempts_head]
    rfl
  · intro reply answered
    rw [answered]
    rfl
  · intro fault failed
    obtain ⟨cause, called, text⟩ := text_of_callFailure fault
    refine ⟨cause, ?_, text⟩
    rw [failed, Except.mapError, called]
  · have all := (Stats.Counted.countSent e.stats method).trans counted
    simpa [heard, List.countP_map, Function.comp_def, Nat.add_comm] using all

end ClusterClient
