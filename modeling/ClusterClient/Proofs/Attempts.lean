import ClusterClient.Proofs.Course
/-!
The attempts of a request to one host, from the first to the last one. Until the outcome of an
attempt comes, other tasks may change the catalog and all that is believed about leaders.
-/
namespace ClusterClient

variable {ρ : Type}

/-- The sending that is under way next, and what is believed when its call is begun. -/
def Turn.next? (e : Estimates) : Turn ρ → Option (Sending × Estimates)
  | .resend s => some (s, e)
  | .pause _ s => some (s, s.attempt e)
  | .finish _ => none

/-- An attempt that has come to its end. -/
structure Attempt (ρ : Type) where
  sending : Sending
  /-- What is believed when the call is begun. -/
  began : Estimates
  /-- What is believed when the outcome comes. -/
  found : Estimates
  outcome : Except Fault ρ
  /-- What is believed once the outcome was taken, and how the request goes on. -/
  left : Estimates
  turn : Turn ρ

namespace Attempt

/-- How long the request pauses before it goes on, if it does pause. -/
def pause? (a : Attempt ρ) : Option Nat :=
  match a.turn with
  | .pause interval _ => some interval
  | _ => none

def result? (a : Attempt ρ) : Option (Except Fault ρ) :=
  match a.turn with
  | .finish result => some result
  | _ => none

def start (a : Attempt ρ) : Sending × Estimates := (a.sending, a.began)

def next? (a : Attempt ρ) : Option (Sending × Estimates) := a.turn.next? a.left

end Attempt

/-- The outcome is an answer that does not report a changed leader. -/
def settles [Reply ρ] : Except Fault ρ → Bool
  | .error _ => false
  | .ok reply => Reply.status reply != .leaderChanged

/-- What is counted for an outcome, whatever comes after it. -/
def tally [Reply ρ] : Except Fault ρ → List Count
  | .error _ => [.failed]
  | .ok reply => if Reply.status reply = .leaderChanged then [.leaderChanged] else []

def Estimates.counting [Reply ρ] (e : Estimates) (outcome : Except Fault ρ) : Estimates :=
  { e with stats := (tally outcome).foldl Stats.count e.stats }

namespace Sending

variable [Reply ρ] {limit interval : Nat} {outcome : Except Fault ρ}

/-- What is believed after an outcome that does not settle the request, and the host to try
then. -/
def heed (s : Sending) (catalog : Catalog) (choice : Nat) (e : Estimates) :
    Except Fault ρ → Estimates × Host
  | .error _ => s.afterFailure e choice
  | .ok reply => s.afterLeaderChange catalog e (Reply.leaderHint reply) choice

theorem stats_heed (s : Sending) (catalog : Catalog) (choice : Nat) (e : Estimates)
    (outcome : Except Fault ρ) : (s.heed catalog choice e outcome).1.stats = e.stats := by
  obtain ⟨method, route, host, retries⟩ := s
  cases outcome <;> cases route <;> rfl

theorem receive_settled (settled : settles outcome = true) (limit interval : Nat)
    (catalog : Catalog) (choice : Nat) (s : Sending) (e : Estimates) :
    s.receive limit interval catalog choice e outcome = (e, .finish outcome) := by
  cases outcome with
  | error fault => cases settled
  | ok reply =>
    have other : Reply.status reply ≠ .leaderChanged := by simpa [settles] using settled
    simp only [receive, if_neg other]

theorem receive_spent (unsettled : settles outcome = false) {s : Sending}
    (spent : limit ≤ s.retries) (catalog : Catalog) (choice : Nat) (e : Estimates) :
    s.receive limit interval catalog choice e outcome =
      ((s.heed catalog choice (e.counting outcome) outcome).1,
        .finish (outcome.mapError callFailure)) := by
  cases outcome with
  | error fault =>
    simp only [receive, if_pos spent]
    rfl
  | ok reply =>
    have changed : Reply.status reply = .leaderChanged := by simpa [settles] using unsettled
    simp only [receive, if_pos changed, if_pos spent, Estimates.counting, tally]
    rfl

/-- With an attempt left the request goes on, after a pause if there was no answer. -/
theorem receive_again (unsettled : settles outcome = false) {s : Sending}
    (left : s.retries < limit) (interval : Nat) (catalog : Catalog) (choice : Nat)
    (e : Estimates) :
    let heard := s.receive limit interval catalog choice e outcome
    let (e', host) := s.heed catalog choice (e.counting outcome) outcome
    (∃ s', heard.2 = if outcome.isOk then .resend s' else .pause interval s') ∧
      heard.2.next? heard.1 = some ({ s with host, retries := s.retries + 1 },
        { e' with stats := e'.stats.countRetry.countSent s.method }) := by
  have more : ¬ limit ≤ s.retries := Nat.not_le.mpr left
  cases outcome with
  | error fault =>
    simp only [receive, if_neg more]
    exact ⟨⟨_, rfl⟩, rfl⟩
  | ok reply =>
    have changed : Reply.status reply = .leaderChanged := by simpa [settles] using unsettled
    simp only [receive, if_pos changed, if_neg more, Estimates.counting, tally]
    exact ⟨⟨_, rfl⟩, rfl⟩

end Sending

/-- What a request meets with its attempts, by their numbers. -/
structure Circumstances (ρ : Type) where
  catalog : Nat → Catalog
  others : Nat → Leaders × MetaLeader → Leaders × MetaLeader
  choice : Nat → Nat
  /-- How long a pause is. -/
  interval : Nat
  outcome : Nat → Host → Except Fault ρ

namespace Circumstances

variable [Reply ρ] (w : Circumstances ρ) (limit : Nat)

/-- The estimates once other tasks were at work. -/
def met (n : Nat) (e : Estimates) : Estimates :=
  let (leaders, metaLeader) := w.others n (e.leaders, e.metaLeader)
  { e with leaders, metaLeader }

def attempt (s : Sending) (e : Estimates) : Attempt ρ :=
  let found := w.met s.retries e
  let outcome := w.outcome s.retries s.host
  let (left, turn) :=
    s.receive limit w.interval (w.catalog s.retries) (w.choice s.retries) found outcome
  ⟨s, e, found, outcome, left, turn⟩

variable {w limit} {s : Sending} {e : Estimates}

theorem attempt_last (e : Estimates)
    (last : settles (w.outcome s.retries s.host) = true ∨ limit ≤ s.retries) :
    (w.attempt limit s e).turn =
        .finish ((w.outcome s.retries s.host).mapError Sending.callFailure) ∧
      (w.attempt limit s e).left.stats =
        (tally (w.outcome s.retries s.host)).foldl Stats.count e.stats := by
  simp only [attempt]
  generalize w.outcome s.retries s.host = outcome at last ⊢
  cases settled : settles outcome with
  | true =>
    rw [Sending.receive_settled settled]
    cases outcome with
    | error fault => cases settled
    | ok reply =>
      have other : Reply.status reply ≠ .leaderChanged := by simpa [settles] using settled
      simp only [tally, if_neg other]
      exact ⟨rfl, rfl⟩
  | false =>
    rw [Sending.receive_spent settled (last.resolve_left (by simp [settled]))]
    exact ⟨rfl, Sending.stats_heed ..⟩

variable (w s e) in
/-- The attempt to follow one that did not settle the request. -/
def follow : Sending × Estimates :=
  let outcome := w.outcome s.retries s.host
  let (e', host) := s.heed (w.catalog s.retries) (w.choice s.retries)
    ((w.met s.retries e).counting outcome) outcome
  ({ s with host, retries := s.retries + 1 },
    { e' with stats := e'.stats.countRetry.countSent s.method })

theorem follow_stats : (w.follow s e).2.stats =
    (((tally (w.outcome s.retries s.host)).foldl Stats.count e.stats).countRetry).countSent
      s.method := by
  simp only [follow, Sending.stats_heed]
  rfl

theorem attempt_again (e : Estimates)
    (unsettled : settles (w.outcome s.retries s.host) = false) (left : s.retries < limit) :
    (w.attempt limit s e).pause? =
        (if !(w.outcome s.retries s.host).isOk then some w.interval else none) ∧
      (w.attempt limit s e).next? = some (w.follow s e) := by
  obtain ⟨⟨s', turned⟩, next⟩ := Sending.receive_again unsettled left w.interval
    (w.catalog s.retries) (w.choice s.retries) (w.met s.retries e)
  refine ⟨?_, next⟩
  simp only [attempt, Attempt.pause?, turned]
  cases (w.outcome s.retries s.host).isOk <;> rfl

theorem again_of_next {next : Sending × Estimates}
    (again : (w.attempt limit s e).next? = some next) :
    settles (w.outcome s.retries s.host) = false ∧ s.retries < limit ∧ next = w.follow s e := by
  by_cases last : settles (w.outcome s.retries s.host) = true ∨ limit ≤ s.retries
  · rw [Attempt.next?, (attempt_last e last).1] at again
    cases again
  · obtain ⟨unsettled, left⟩ := not_or.mp last
    have unsettled := Bool.eq_false_iff.mpr unsettled
    have left := Nat.lt_of_not_le left
    exact ⟨unsettled, left, Option.some.inj (again.symm.trans (attempt_again e unsettled left).2)⟩

theorem left_settled (settled : settles (w.outcome s.retries s.host) = true) :
    (w.attempt limit s e).left = (w.attempt limit s e).found := by
  simp only [attempt, Sending.receive_settled settled]

section Part

variable {id : SpaceId} {p : PartId} {fault : Fault} {reply : ρ}

variable (limit e) in
theorem left_failed (route : s.route = .part id p)
    (failed : w.outcome s.retries s.host = .error fault) :
    (w.attempt limit s e).left.leaders = (w.attempt limit s e).found.leaders ∧
      (w.attempt limit s e).left.metaLeader = (w.attempt limit s e).found.metaLeader := by
  simp only [attempt, failed, Sending.receive, Sending.afterFailure, route]
  split <;> exact ⟨rfl, rfl⟩

variable (limit e) in
theorem left_changed (route : s.route = .part id p)
    (answered : w.outcome s.retries s.host = .ok reply)
    (changed : Reply.status reply = .leaderChanged) :
    (w.attempt limit s e).left.leaders =
      Leaders.follow (w.attempt limit s e).found.leaders id p (Reply.leaderHint reply) := by
  simp only [attempt, answered, Sending.receive, if_pos changed, Sending.afterLeaderChange, route]
  split <;> rfl

variable (e) in
theorem follow_failed (route : s.route = .part id p)
    (failed : w.outcome s.retries s.host = .error fault) : (w.follow s e).1.host = s.host := by
  simp only [follow, failed, Sending.heed, Sending.afterFailure, route]

variable (e) in
/-- The partition is routed anew, if there still is such a one. -/
theorem follow_changed (route : s.route = .part id p)
    (answered : w.outcome s.retries s.host = .ok reply) :
    let leaders := Leaders.follow (w.met s.retries e).leaders id p (Reply.leaderHint reply)
    (w.follow s e).2.leaders = leaders ∧
      (w.follow s e).1.host = match (w.catalog s.retries).partHosts id p with
        | .ok found => (Leaders.target? leaders found).getD s.host
        | .error _ => s.host := by
  simp only [follow, answered, Sending.heed, Sending.afterLeaderChange, route]
  exact ⟨rfl, rfl⟩

end Part

variable (w limit)

/-- All attempts from a sending that is under way. -/
def attempts (s : Sending) (e : Estimates) : List (Attempt ρ) :=
  match again : (w.attempt limit s e).next? with
  | none => [w.attempt limit s e]
  | some next =>
    have : s.retries < limit ∧ next.1.retries = s.retries + 1 := by
      obtain ⟨-, left, rfl⟩ := again_of_next again
      exact ⟨left, rfl⟩
    w.attempt limit s e :: attempts next.1 next.2
termination_by limit - s.retries

/-- All attempts of a request that begins at a host. -/
def send (method : String) (route : Route) (host : Host) (e : Estimates) : List (Attempt ρ) :=
  let s : Sending := ⟨method, route, host, 0⟩
  w.attempts limit s (s.attempt e)

variable {w limit}

theorem attempts_over (ended : (w.attempt limit s e).next? = none) :
    w.attempts limit s e = [w.attempt limit s e] := by
  unfold attempts
  split
  · rfl
  · rename_i again
    cases ended.symm.trans again

theorem attempts_again {next : Sending × Estimates}
    (again : (w.attempt limit s e).next? = some next) :
    w.attempts limit s e = w.attempt limit s e :: w.attempts limit next.1 next.2 := by
  conv_lhs => unfold attempts
  split
  · rename_i ended
    cases ended.symm.trans again
  · rename_i again'
    cases again'.symm.trans again
    rfl

theorem attempts_last (last : settles (w.outcome s.retries s.host) = true ∨ limit ≤ s.retries) :
    w.attempts limit s e = [w.attempt limit s e] := by
  apply attempts_over
  rw [Attempt.next?, (attempt_last e last).1]
  rfl

theorem attempts_head : (w.attempts limit s e).head? = some (w.attempt limit s e) := by
  unfold attempts
  split <;> rfl

/-- Every attempt is begun when the one before is over, by what came of that one. -/
theorem attempts_chain :
    (w.attempts limit s e).IsChain fun a b => a.next? = some b.start := by
  induction s, e using attempts.induct w limit with
  | case1 s e ended =>
    rw [attempts_over ended]
    exact .singleton _
  | case2 s e next again _ ih =>
    rw [attempts_again again]
    refine List.isChain_cons.mpr ⟨fun b first => ?_, ih⟩
    cases attempts_head.symm.trans first
    exact again

/-- The attempt that has a number, and what comes after it. -/
theorem getElem?_attempts {n : Nat} {a : Attempt ρ} (nth : (w.attempts limit s e)[n]? = some a) :
    a = w.attempt limit a.sending a.began ∧ a.sending.retries = s.retries + n ∧
      a.sending.route = s.route ∧
      (w.attempts limit s e)[n + 1]? = a.next?.map fun next => w.attempt limit next.1 next.2 := by
  induction s, e using attempts.induct w limit generalizing n with
  | case1 s e ended =>
    rw [attempts_over ended] at nth ⊢
    obtain ⟨rfl, rfl⟩ : n = 0 ∧ a = w.attempt limit s e := by
      cases n with
      | zero => exact ⟨rfl, (Option.some.inj nth).symm⟩
      | succ n => cases nth
    exact ⟨rfl, rfl, rfl, by rw [ended]; rfl⟩
  | case2 s e next again rise ih =>
    rw [attempts_again again] at nth ⊢
    cases n with
    | zero =>
      cases nth
      refine ⟨rfl, rfl, rfl, ?_⟩
      rw [List.getElem?_cons_succ, ← List.head?_eq_getElem?, attempts_head, again]
      rfl
    | succ n =>
      obtain ⟨self, number, route, later⟩ := ih nth
      obtain ⟨-, -, rfl⟩ := again_of_next again
      exact ⟨self, by omega, route, later⟩

end Circumstances

end ClusterClient
