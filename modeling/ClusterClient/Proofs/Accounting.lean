import ClusterClient.Proofs.Conservation
import ClusterClient.Proofs.Grouping
import ClusterClient.Proofs.Ledger
import ClusterClient.Proofs.Retries
import Mathlib.Algebra.BigOperators.Group.List.Basic
import Mathlib.Algebra.Ring.Nat
/-!
The counters of a client add up, however its requests go on side by side: each call that was made
has failed, was answered or is under way; each call that is not the first one for its request was
counted as one more try; and each report of a changed leader was counted once.
-/
namespace ClusterClient

theorem Table.sum_values_modify {κ : Type} [Ordered κ] [DecidableEq κ] (t : Table κ Nat) (k : κ) :
    (t.modify k 0 (· + 1)).values.sum = t.values.sum + 1 := by
  -- in unary, so that the counts of all keys together are a list up to its order
  have sum (l : List Nat) : (l.flatMap fun n => List.replicate n ()).length = l.sum := by
    simp [List.length_flatMap]
  have perm : ((t.modify k 0 (· + 1)).values.flatMap fun n => List.replicate n ()).Perm
      ([()] ++ t.values.flatMap fun n => List.replicate n ()) :=
    flatMap_values_modify [()] rfl (.refl _)
  rw [← sum, perm.length_eq, List.length_append, sum, Nat.add_comm]
  rfl

/-! ## Counters -/

namespace Count

def isSent : Count → Bool
  | .sent _ => true
  | _ => false

def isFailed : Count → Bool
  | .failed => true
  | _ => false

def isLeaderChanged : Count → Bool
  | .leaderChanged => true
  | _ => false

def isRetry : Count → Bool
  | .retry => true
  | _ => false

end Count

namespace Stats

/-- Each call is counted under its method too. -/
def ByMethod (s : Stats) : Prop := s.methods.values.sum = s.sent

/-- What a reading has become by what was counted since. -/
structure Grown (before after : Stats) (counts : List Count) : Prop where
  sent : after.sent = before.sent + counts.countP Count.isSent
  failed : after.failed = before.failed + counts.countP Count.isFailed
  leaderChanged : after.leaderChanged = before.leaderChanged + counts.countP Count.isLeaderChanged
  retries : after.retries = before.retries + counts.countP Count.isRetry
  byMethod : ByMethod before → ByMethod after

theorem grown_count (s : Stats) (c : Count) : Grown s (s.count c) [c] := by
  cases c with
  | sent method =>
    refine ⟨rfl, rfl, rfl, rfl, fun even => ?_⟩
    change (s.methods.modify method 0 (· + 1)).values.sum = s.sent + 1
    rw [Table.sum_values_modify, even]
  | failed => exact ⟨rfl, rfl, rfl, rfl, id⟩
  | leaderChanged => exact ⟨rfl, rfl, rfl, rfl, id⟩
  | retry => exact ⟨rfl, rfl, rfl, rfl, id⟩

theorem grown (s : Stats) (counts : List Count) : Grown s (counts.foldl count s) counts := by
  induction counts generalizing s with
  | nil => exact ⟨rfl, rfl, rfl, rfl, id⟩
  | cons c rest ih =>
    have first := s.grown_count c
    have later := ih (s.count c)
    have split (p : Count → Bool) : (c :: rest).countP p = [c].countP p + rest.countP p := by
      rw [← List.singleton_append, List.countP_append]
    constructor
    · rw [List.foldl_cons, later.sent, first.sent, split, Nat.add_assoc]
    · rw [List.foldl_cons, later.failed, first.failed, split, Nat.add_assoc]
    · rw [List.foldl_cons, later.leaderChanged, first.leaderChanged, split, Nat.add_assoc]
    · rw [List.foldl_cons, later.retries, first.retries, split, Nat.add_assoc]
    · exact fun even => later.byMethod (first.byMethod even)

theorem shown_count (s : Stats) (c : Count) : (s.shown.count c).shown = (s.count c).shown := by
  have next (n : Nat) : (n % UInt64.size + 1) % UInt64.size = (n + 1) % UInt64.size :=
    Nat.mod_add_mod ..
  have same (n : Nat) : n % UInt64.size % UInt64.size = n % UInt64.size := Nat.mod_mod ..
  have kept : (s.shown.methods.mapValues fun _ n => n % UInt64.size) = s.shown.methods := by
    refine Table.ext_get? fun m => ?_
    simp only [shown, Table.get?_mapValues, Option.map_map, Function.comp_def, same]
  cases c with
  | sent method =>
    have methods : ((s.shown.methods.modify method 0 (· + 1)).mapValues fun _ n =>
        n % UInt64.size) = (s.methods.modify method 0 (· + 1)).mapValues fun _ n =>
          n % UInt64.size := by
      refine Table.ext_get? fun m => ?_
      simp only [shown, Table.get?_mapValues, Table.get?_modify, Table.getD]
      split
      · cases s.methods.get? method <;> simp [next]
      · cases s.methods.get? m <;> simp
    simp only [shown, count, countSent] at methods ⊢
    simp only [next, same, methods]
  | failed | leaderChanged | retry =>
    simp only [shown, count, countFailed, countLeaderChanged, countRetry] at kept ⊢
    simp only [next, same, kept]

/-- Counters that begin again at zero whenever they have come to their end show the same. -/
theorem shown_counts (s : Stats) (counts : List Count) :
    counts.foldl (fun s c => (s.count c).shown) s.shown = (counts.foldl count s).shown := by
  induction counts generalizing s with
  | nil => rfl
  | cons c rest ih => rw [List.foldl_cons, List.foldl_cons, shown_count, ih]

theorem shown_eq {s : Stats} (small : ∀ n ∈ s.numbers, n < UInt64.size) : s.shown = s := by
  obtain ⟨sent, failed, leaderChanged, retries, methods⟩ := s
  simp only [numbers, List.forall_mem_cons] at small
  obtain ⟨sent_lt, failed_lt, changed_lt, retries_lt, each⟩ := small
  have kept : (methods.mapValues fun _ n => n % UInt64.size) = methods := by
    refine Table.eq_of_entries ?_
    refine (List.map_congr_left fun e here => ?_).trans (List.map_id _)
    have small := each e.2 (List.mem_map_of_mem here)
    exact Prod.ext rfl (Nat.mod_eq_of_lt small)
  simp only [shown, Nat.mod_eq_of_lt, sent_lt, failed_lt, changed_lt, retries_lt, kept]

end Stats

/-! ## Requests to many hosts -/

theorem Int64.foldl_max_spec (l : List Int64) (m : Int64) :
    l.foldl max m ∈ m :: l ∧ ∀ x ∈ m :: l, x ≤ l.foldl max m := by
  induction l generalizing m with
  | nil => simp
  | cons a rest ih =>
    obtain ⟨among, most⟩ := ih (max m a)
    have larger : max m a = if m ≤ a then a else m := rfl
    have first := most _ List.mem_cons_self
    constructor
    · rcases List.mem_cons.mp among with here | here
      · rw [List.foldl_cons, here, larger]
        split <;> simp
      · exact List.mem_cons_of_mem _ (List.mem_cons_of_mem _ here)
    · intro x listed
      rcases List.mem_cons.mp listed with rfl | listed
      · refine Int64.le_trans ?_ first
        rw [larger]
        split
        · assumption
        · exact Int64.le_refl _
      · rcases List.mem_cons.mp listed with rfl | listed
        · refine Int64.le_trans ?_ first
          rw [larger]
          split
          · exact Int64.le_refl _
          · exact Int64.le_of_lt (Int64.not_le.mp ‹_›)
        · exact most x (List.mem_cons_of_mem _ listed)

namespace Scatter

variable {α δ : Type}

theorem length_sent (ticket wave : Nat) (calls : List (Host × Host × Batch α)) :
    (sent ticket wave calls).length = calls.length := by
  simpa using congrArg List.length (sent_tickets ticket wave calls)

def answers (ended : List (Ended α δ)) : List (StorageReply δ) :=
  ended.flatMap fun x => replies x.outcome

theorem length_answers (ended : List (Ended α δ)) :
    (answers ended).length = (ended.map Ended.outcome).countP Except.isOk := by
  induction ended with
  | nil => rfl
  | cons x rest ih =>
    obtain ⟨f, outcome⟩ := x
    rw [answers, List.flatMap_cons, List.length_append, List.map_cons, List.countP_cons, ← ih]
    cases outcome <;> simp [replies, answers, Except.isOk, Except.toBool, Nat.add_comm]

/-- What a request shows of the calls that have ended. -/
structure Recorded (s : Scatter α δ) (ended : List (Ended α δ)) : Prop where
  ticketed : Ticketed s.flights s.dispatched
  made : s.dispatched = ended.length + s.flights.length
  responses : s.responses = answers ended
  latencies : s.latencies.map (·.2) = s.responses.map StorageReply.latency
  maxLatency : s.maxLatency = (s.responses.map StorageReply.latency).foldl max 0

theorem start_recorded (method : String) (requests : Table Host (Batch α)) (stats : Stats) :
    Recorded (start method requests stats : Scatter α δ × Stats).1 [] := by
  rw [start_eq]
  have none : Ticketed ([] : List (Flight α)) 0 := ⟨List.nodup_nil, by simp⟩
  refine ⟨?_, ?_, rfl, rfl, rfl⟩
  · simpa using sent_ticketed none 0 (opening requests)
  · simp [length_sent]

theorem Recorded.receive {s : Scatter α δ} {ended : List (Ended α δ)} (h : Recorded s ended)
    {f : Flight α} (under : f ∈ s.flights) (limit : Nat) (catalog : Catalog) (e : Estimates)
    (outcome : Except Fault (StorageReply δ)) :
    Recorded (s.receive limit catalog f.ticket outcome e).1 (ended ++ [⟨f, outcome⟩]) := by
  have one := (flights_perm h.ticketed.unique under).length_eq
  have ticketed := settle_ticketed (s := { s with flights := others f s.flights })
    (others_ticketed h.ticketed f) limit catalog f e outcome
  rw [receive_under h.ticketed under]
  refine ⟨ticketed, ?_, ?_, ?_, ?_⟩
  all_goals rw [settle_eq]
  · simp only [h.made, List.length_append, length_sent, List.length_cons, List.length_nil] at one ⊢
    omega
  · simp [h.responses, answers]
  · simp [h.latencies]
  · simp [h.maxLatency, List.foldl_map]

theorem Recorded.counts {s : Scatter α δ} {ended : List (Ended α δ)} (h : Recorded s ended)
    {f : Flight α} (under : f ∈ s.flights) (limit : Nat) (catalog : Catalog) (e : Estimates)
    (outcome : Except Fault (StorageReply δ)) :
    let u := upshot limit catalog s.method e.leaders f outcome
    let (s', e') := s.receive limit catalog f.ticket outcome e
    e'.stats = u.counts.foldl Stats.count e.stats ∧
      s'.dispatched = s.dispatched + u.calls.length := by
  rw [receive_under h.ticketed under, settle_eq]
  exact ⟨rfl, rfl⟩

/-- How many entries of an answer report a changed leader. -/
def changesIn (reply : StorageReply δ) : Nat :=
  reply.failed.countP fun x => x.status == .leaderChanged

theorem upshot_counts (limit : Nat) (catalog : Catalog) (method : String) (leaders : Leaders)
    (f : Flight α) (outcome : Except Fault (StorageReply δ)) :
    let u := upshot limit catalog method leaders f outcome
    u.counts.countP Count.isSent = u.calls.length ∧
      u.counts.countP Count.isRetry = u.calls.length ∧
      u.counts.countP Count.isFailed = [outcome].countP (fun x => !x.isOk) ∧
      u.counts.countP Count.isLeaderChanged = ((replies outcome).map changesIn).sum := by
  cases outcome with
  | error fault => exact ⟨rfl, rfl, rfl, rfl⟩
  | ok reply =>
    have changed (p : Count → Bool) (l : List (PartId × Option Host)) :
        (l.map fun _ => Count.leaderChanged).countP p =
          if p .leaderChanged then l.length else 0 := by
      simp [List.countP_replicate]
    have again (p : Count → Bool) (l : List (Host × Host × Batch α)) :
        (l.flatMap fun _ => [Count.retry, Count.sent method]).countP p =
          l.length * [Count.retry, Count.sent method].countP p := by
      induction l with
      | nil => simp
      | cons c rest ih =>
        rw [List.flatMap_cons, List.countP_append, ih, List.length_cons, Nat.succ_mul,
          Nat.add_comm]
    have hints : (hinted reply.failed).length = changesIn reply := by
      simp [hinted, changesIn, List.countP_eq_length_filter]
    simp only [upshot, replies, List.map_cons, List.map_nil, List.sum_singleton]
    split
    · simp only [List.countP_append, changed, again, hints]
      refine ⟨?_, ?_, ?_, ?_⟩ <;> simp [List.countP_cons, Count.isSent, Count.isRetry,
        Count.isFailed, Count.isLeaderChanged, Except.isOk, Except.toBool]
    · simp only [changed, hints]
      exact ⟨rfl, rfl, rfl, rfl⟩

end Scatter

/-! ## Requests to one host -/

namespace Turn

variable {ρ : Type}

/-- What is counted for going on in this way. -/
def counts : Turn ρ → List Count
  | .resend s => [.retry, .sent s.method]
  | .pause _ _ => [.retry]
  | .finish _ => []

def isOver : Turn ρ → Bool
  | .finish _ => true
  | _ => false

/-- The calls that are under way, which is one at most. -/
def underway : Turn ρ → Nat
  | .resend _ => 1
  | _ => 0

def pausing : Turn ρ → Nat
  | .pause _ _ => 1
  | _ => 0

end Turn

theorem Turn.countP_counts {ρ : Type} (turn : Turn ρ) :
    turn.counts.countP Count.isSent = turn.underway ∧
      turn.counts.countP Count.isRetry = turn.underway + turn.pausing ∧
      turn.counts.countP Count.isFailed = 0 ∧ turn.counts.countP Count.isLeaderChanged = 0 := by
  cases turn <;> exact ⟨rfl, rfl, rfl, rfl⟩

theorem Sending.stats_receive {ρ : Type} [Reply ρ] (limit interval : Nat) (catalog : Catalog)
    (choice : Nat) (s : Sending) (e : Estimates) (outcome : Except Fault ρ) :
    (s.receive limit interval catalog choice e outcome).1.stats =
      (tally outcome ++ (s.receive limit interval catalog choice e outcome).2.counts).foldl
        Stats.count e.stats := by
  cases settled : settles outcome with
  | true =>
    rw [receive_settled settled]
    cases outcome with
    | error fault => cases settled
    | ok reply =>
      have other : Reply.status reply ≠ .leaderChanged := by simpa [settles] using settled
      simp [tally, other, Turn.counts]
  | false =>
    by_cases spent : limit ≤ s.retries
    · rw [receive_spent settled spent, stats_heed]
      simp [Estimates.counting, Turn.counts]
    · have kept := s.stats_heed catalog choice (e.counting outcome) outcome
      cases outcome with
      | error fault =>
        simp only [receive, if_neg spent]
        exact congrArg Stats.countRetry kept
      | ok reply =>
        have changed : Reply.status reply = .leaderChanged := by simpa [settles] using settled
        simp only [receive, if_pos changed, if_neg spent]
        simp only [Estimates.counting, tally, if_pos changed] at kept ⊢
        exact congrArg (fun st : Stats => st.countRetry.countSent s.method) kept

theorem countP_tally {ρ : Type} [Reply ρ] (outcome : Except Fault ρ) :
    (tally outcome).countP Count.isSent = 0 ∧ (tally outcome).countP Count.isRetry = 0 ∧
      (tally outcome).countP Count.isFailed = [outcome].countP (fun x => !x.isOk) ∧
      (tally outcome).countP Count.isLeaderChanged = [outcome].countP moved := by
  cases outcome with
  | error fault => exact ⟨rfl, rfl, rfl, rfl⟩
  | ok reply =>
    by_cases changed : Reply.status reply = .leaderChanged
    · have reported : moved (.ok reply) = true := beq_iff_eq.mpr changed
      simp only [tally, if_pos changed, List.countP_singleton, reported]
      exact ⟨rfl, rfl, rfl, rfl⟩
    · have none : moved (.ok reply) = false := beq_eq_false_iff_ne.mpr changed
      simp only [tally, if_neg changed, List.countP_singleton, none]
      exact ⟨rfl, rfl, rfl, rfl⟩

/-! ## All of them -/

/-- A request, with all that has become of its calls so far. -/
inductive Errand : Type 1
  | scattered {α δ : Type} (limit : Nat) (requests : Table Host (Batch α)) (s : Scatter α δ)
    (ended : List (Scatter.Ended α δ))
  | single {ρ : Type} [Reply ρ] (limit : Nat) (turn : Turn ρ) (outcomes : List (Except Fault ρ))

namespace Errand

/-- A request begins to be served, at these readings of the counters before and after. -/
inductive Begins (stats : Stats) : Stats → Errand → Prop
  | scattered {α δ : Type} (limit : Nat) (method : String) (requests : Table Host (Batch α)) :
    Begins stats (Scatter.start method requests stats : Scatter α δ × Stats).2
      (.scattered limit requests (Scatter.start method requests stats : Scatter α δ × Stats).1 [])
  | single {ρ : Type} [Reply ρ] (limit : Nat) (method : String) (route : Route) (host : Host)
    (e : Estimates) (shared : e.stats = stats) :
    Begins stats (Sending.attempt ⟨method, route, host, 0⟩ e).stats
      (.single limit (.resend ⟨method, route, host, 0⟩ : Turn ρ) [])

/-- A request takes the outcome of one of its calls, or goes on after a pause. The catalog and
all that is believed about leaders are as other tasks have left them. -/
inductive Step (stats : Stats) : Errand → Stats → Errand → Prop
  | gathers {α δ : Type} {limit : Nat} {requests : Table Host (Batch α)} {s : Scatter α δ}
    {ended : List (Scatter.Ended α δ)} {f : Flight α} (under : f ∈ s.flights) (catalog : Catalog)
    (e : Estimates) (shared : e.stats = stats) (outcome : Except Fault (StorageReply δ)) :
    Step stats (.scattered limit requests s ended)
      (s.receive limit catalog f.ticket outcome e).2.stats
      (.scattered limit requests (s.receive limit catalog f.ticket outcome e).1
        (ended ++ [⟨f, outcome⟩]))
  | hears {ρ : Type} [Reply ρ] {limit : Nat} {s : Sending} {outcomes : List (Except Fault ρ)}
    (interval : Nat) (catalog : Catalog) (choice : Nat) (e : Estimates) (shared : e.stats = stats)
    (outcome : Except Fault ρ) :
    Step stats (.single limit (.resend s) outcomes)
      (s.receive limit interval catalog choice e outcome).1.stats
      (.single limit (s.receive limit interval catalog choice e outcome).2
        (outcomes ++ [outcome]))
  | wakes {ρ : Type} [Reply ρ] {limit interval : Nat} {s : Sending}
    {outcomes : List (Except Fault ρ)} (e : Estimates) (shared : e.stats = stats) :
    Step stats (.single limit (.pause interval s : Turn ρ) outcomes) (s.attempt e).stats
      (.single limit (.resend s) outcomes)

/-- A call is known by its ticket. -/
theorem Step.gathers_ticket {α δ : Type} {s : Scatter α δ} {ticket : Nat}
    (under : ticket ∈ s.flights.map Flight.ticket) (limit : Nat) (requests : Table Host (Batch α))
    (ended : List (Scatter.Ended α δ)) (catalog : Catalog) (e : Estimates)
    (outcome : Except Fault (StorageReply δ)) :
    ∃ f, Step e.stats (.scattered limit requests s ended)
      (s.receive limit catalog ticket outcome e).2.stats
      (.scattered limit requests (s.receive limit catalog ticket outcome e).1
        (ended ++ [⟨f, outcome⟩])) := by
  obtain ⟨f, here, rfl⟩ := List.mem_map.mp under
  exact ⟨f, .gathers here catalog e rfl outcome⟩

def isOver : Errand → Bool
  | .scattered _ _ s _ => s.finished
  | @single _ _ _ turn _ => turn.isOver

/-- How many calls the request began with. -/
def originals : Errand → Nat
  | .scattered _ requests _ _ => requests.size
  | @single _ _ _ _ _ => 1

def calls : Errand → Nat
  | .scattered _ _ s _ => s.dispatched
  | @single _ _ _ turn outcomes => outcomes.length + turn.underway

def failures : Errand → Nat
  | .scattered _ _ _ ended => (ended.map Scatter.Ended.outcome).countP fun x => !x.isOk
  | @single _ _ _ _ outcomes => outcomes.countP fun x => !x.isOk

def answers : Errand → Nat
  | .scattered _ _ _ ended => (Scatter.answers ended).length
  | @single _ _ _ _ outcomes => outcomes.countP Except.isOk

/-- How many reports of a changed leader came: those of single partitions, if the request was
for many hosts. -/
def changes : Errand → Nat
  | .scattered _ _ _ ended => ((Scatter.answers ended).map Scatter.changesIn).sum
  | @single _ _ _ _ outcomes => outcomes.countP moved

def pausing : Errand → Nat
  | .scattered .. => 0
  | @single _ _ _ turn _ => turn.pausing

/-- The calls that are under way. -/
def underway : Errand → Nat
  | .scattered _ _ s _ => s.flights.length
  | @single _ _ _ turn _ => turn.underway

def Sound : Errand → Prop
  | .scattered _ _ s ended => Scatter.Recorded s ended
  | @single _ _ _ _ _ => True

/-- What was counted when a request went from one state to another. -/
structure Booked (counts : List Count) (a b : Errand) : Prop where
  originals : b.originals = a.originals
  calls : b.calls = a.calls + counts.countP Count.isSent
  failures : b.failures = a.failures + counts.countP Count.isFailed
  changes : b.changes = a.changes + counts.countP Count.isLeaderChanged
  again : b.calls + b.pausing = a.calls + a.pausing + counts.countP Count.isRetry

theorem Step.booked {stats stats' : Stats} {a b : Errand} (step : Step stats a stats' b)
    (sound : a.Sound) :
    b.Sound ∧ ∃ counts, stats' = counts.foldl Stats.count stats ∧ Booked counts a b := by
  cases step with
  | @gathers _ _ limit requests s ended f under catalog e shared outcome =>
    have recorded : Scatter.Recorded s ended := sound
    obtain ⟨counted, made⟩ := recorded.counts under limit catalog e outcome
    obtain ⟨sent, again, failed, changed⟩ :=
      Scatter.upshot_counts limit catalog s.method e.leaders f outcome
    refine ⟨recorded.receive under limit catalog e outcome, _, shared ▸ counted, ?_⟩
    constructor
    · rfl
    · rw [sent]
      exact made
    · rw [failed]
      simp [failures]
    · rw [changed]
      simp [changes, Scatter.answers]
    · rw [again]
      exact made
  | @hears _ _ limit s outcomes interval catalog choice e shared outcome =>
    refine ⟨trivial, _,
      shared ▸ Sending.stats_receive limit interval catalog choice s e outcome, ?_⟩
    obtain ⟨sent, again, failed, changed⟩ := countP_tally outcome
    generalize (s.receive limit interval catalog choice e outcome).2 = turn
    obtain ⟨sent', again', failed', changed'⟩ := turn.countP_counts
    constructor
    · rfl
    · rw [List.countP_append, sent, sent']
      simp only [calls, Turn.underway, List.length_append, List.length_singleton]
      omega
    · rw [List.countP_append, failed, failed']
      exact List.countP_append
    · rw [List.countP_append, changed, changed']
      exact List.countP_append
    · rw [List.countP_append, again, again']
      simp only [calls, pausing, Turn.underway, Turn.pausing, List.length_append,
        List.length_singleton]
      omega
  | @wakes _ _ limit interval s outcomes e shared =>
    refine ⟨trivial, [.sent s.method], shared ▸ rfl, ?_⟩
    constructor <;> rfl

theorem Begins.booked {stats stats' : Stats} {b : Errand} (begins : Begins stats stats' b) :
    b.Sound ∧ b.originals = b.calls ∧ b.failures = 0 ∧ b.changes = 0 ∧ b.pausing = 0 ∧
      ∃ method, stats' = (List.replicate b.calls (Count.sent method)).foldl Stats.count stats := by
  cases begins with
  | scattered limit method requests =>
    refine ⟨Scatter.start_recorded method requests stats, ?_, rfl, rfl, rfl, method, ?_⟩
    · rw [calls, Scatter.start_eq]
      simp [originals, Scatter.opening, Table.size]
    · rw [calls, Scatter.start_eq, List.map_const']
  | single limit method route host e shared =>
    exact ⟨trivial, rfl, rfl, rfl, rfl, method, shared ▸ rfl⟩

/-- Each call of a request has failed, was answered or is under way. -/
theorem Sound.calls_eq {a : Errand} (sound : a.Sound) :
    a.calls = a.failures + a.answers + a.underway := by
  have split {ρ : Type} (outcomes : List (Except Fault ρ)) : outcomes.length =
      outcomes.countP (fun x => !x.isOk) + outcomes.countP Except.isOk := by
    rw [List.length_eq_countP_add_countP Except.isOk, Nat.add_comm]
    simp
  cases a with
  | scattered limit requests s ended =>
    have recorded : Scatter.Recorded s ended := sound
    have all := split (ended.map Scatter.Ended.outcome)
    rw [List.length_map] at all
    simp only [calls, failures, answers, underway, recorded.made, Scatter.length_answers]
    omega
  | single limit turn outcomes =>
    simp only [calls, failures, answers, underway]
    have all := split outcomes
    omega

theorem underway_of_over {a : Errand} (settled : a.isOver = true) : a.underway = 0 := by
  cases a with
  | scattered limit requests s ended =>
    exact List.length_eq_zero_iff.mpr (List.isEmpty_iff.mp settled)
  | single limit turn outcomes => cases turn <;> first | rfl | cases settled

theorem pausing_of_over {a : Errand} (settled : a.isOver = true) : a.pausing = 0 := by
  cases a with
  | scattered limit requests s ended => rfl
  | single limit turn outcomes => cases turn <;> first | rfl | cases settled

end Errand

/-- All requests that share the counters of a client. -/
structure Traffic : Type 1 where
  stats : Stats
  errands : List Errand

namespace Traffic

/-- How things may have gone since the counters were at zero. -/
inductive Reached : Traffic → Prop
  | idle : Reached ⟨.zero, []⟩
  | begins {t : Traffic} (h : Reached t) {stats : Stats} {e : Errand}
    (begins : e.Begins t.stats stats) : Reached ⟨stats, t.errands ++ [e]⟩
  | goes {stats stats' : Stats} {before after : List Errand} {a b : Errand}
    (h : Reached ⟨stats, before ++ a :: after⟩) (step : a.Step stats stats' b) :
    Reached ⟨stats', before ++ b :: after⟩

/-- The sum of a number over all requests. -/
def total (t : Traffic) (n : Errand → Nat) : Nat := (t.errands.map n).sum

structure Balanced (t : Traffic) : Prop where
  sound : ∀ e ∈ t.errands, e.Sound
  sent : t.stats.sent = t.total Errand.calls
  failed : t.stats.failed = t.total Errand.failures
  leaderChanged : t.stats.leaderChanged = t.total Errand.changes
  retries : t.stats.retries + t.total Errand.originals =
    t.total Errand.calls + t.total Errand.pausing
  byMethod : t.stats.ByMethod

theorem total_between (stats : Stats) (before after : List Errand) (e : Errand)
    (n : Errand → Nat) :
    total ⟨stats, before ++ e :: after⟩ n = (before.map n).sum + n e + (after.map n).sum := by
  simp [total, Nat.add_assoc]

theorem total_append (stats : Stats) (errands : List Errand) (e : Errand) (n : Errand → Nat) :
    total ⟨stats, errands ++ [e]⟩ n = (errands.map n).sum + n e := by
  simp [total]

theorem Balanced.begins {t : Traffic} (balanced : Balanced t) {stats : Stats} {e : Errand}
    (begins : e.Begins t.stats stats) : Balanced ⟨stats, t.errands ++ [e]⟩ := by
  obtain ⟨sound, first, failures, changes, pausing, method, counted⟩ := begins.booked
  have grown := t.stats.grown (List.replicate e.calls (Count.sent method))
  rw [← counted] at grown
  have one (p : Count → Bool) : (List.replicate e.calls (Count.sent method)).countP p =
      if p (.sent method) then e.calls else 0 := List.countP_replicate
  constructor
  · intro other among
    rcases List.mem_append.mp among with old | new
    · exact balanced.sound other old
    · rw [List.mem_singleton.mp new]
      exact sound
  · rw [total_append, grown.sent, one, balanced.sent]
    rfl
  · rw [total_append, grown.failed, one, balanced.failed, failures]
    rfl
  · rw [total_append, grown.leaderChanged, one, balanced.leaderChanged, changes]
    rfl
  · have retries := balanced.retries
    rw [total_append, total_append, total_append, grown.retries, one, first, pausing]
    simp only [total, Count.isRetry, Bool.false_eq_true, if_false] at retries ⊢
    omega
  · exact grown.byMethod balanced.byMethod

theorem Balanced.goes {stats stats' : Stats} {before after : List Errand} {a b : Errand}
    (balanced : Balanced ⟨stats, before ++ a :: after⟩) (step : a.Step stats stats' b) :
    Balanced ⟨stats', before ++ b :: after⟩ := by
  obtain ⟨sound, counts, counted, booked⟩ := step.booked (balanced.sound a (by simp))
  have grown := stats.grown counts
  rw [← counted] at grown
  constructor
  · intro other among
    rcases List.mem_append.mp among with old | here
    · exact balanced.sound other (List.mem_append_left _ old)
    · rcases List.mem_cons.mp here with rfl | old
      · exact sound
      · exact balanced.sound other (List.mem_append_right _ (List.mem_cons_of_mem _ old))
  · have sent : stats.sent = _ := balanced.sent
    rw [total_between] at sent ⊢
    rw [grown.sent, booked.calls]
    omega
  · have failed : stats.failed = _ := balanced.failed
    rw [total_between] at failed ⊢
    rw [grown.failed, booked.failures]
    omega
  · have changed : stats.leaderChanged = _ := balanced.leaderChanged
    rw [total_between] at changed ⊢
    rw [grown.leaderChanged, booked.changes]
    omega
  · have retries : stats.retries + _ = _ := balanced.retries
    have again := booked.again
    rw [total_between, total_between, total_between] at retries ⊢
    rw [grown.retries, booked.originals]
    omega
  · exact grown.byMethod balanced.byMethod

theorem reached_balanced {t : Traffic} (h : Reached t) : Balanced t := by
  induction h with
  | idle => exact ⟨by simp, rfl, rfl, rfl, rfl, rfl⟩
  | begins _ begins ih => exact ih.begins begins
  | goes _ step ih => exact ih.goes step

/-- Once all requests are over, the counters add up, each against the others and against what
came in answer to the calls, and they are shown as they are until one of them has come to the end
of its 64 bits; and each request to many hosts shows just the answers that came. -/
theorem counters_add_up {t : Traffic} (reached : Reached t)
    (settled : ∀ e ∈ t.errands, e.isOver = true) :
    t.stats.sent = t.stats.methods.values.sum ∧
    t.stats.sent = t.stats.failed + t.total Errand.answers ∧
    t.stats.sent = t.total Errand.originals + t.stats.retries ∧
    t.stats.leaderChanged = t.total Errand.changes ∧
    ((∀ n ∈ t.stats.numbers, n < 2 ^ 64) → t.stats.shown = t.stats) ∧
    ∀ {α δ : Type} (limit : Nat) (requests : Table Host (Batch α)) (s : Scatter α δ)
      (ended : List (Scatter.Ended α δ)), .scattered limit requests s ended ∈ t.errands →
      s.dispatched = ended.length ∧
      s.responses = Scatter.answers ended ∧
      s.latencies.map (·.2) = s.responses.map StorageReply.latency ∧
      s.responses.length = s.latencies.length ∧
      s.responses.length =
        s.dispatched - (ended.map Scatter.Ended.outcome).countP (fun x => !x.isOk) ∧
      s.maxLatency ∈ 0 :: s.latencies.map (·.2) ∧
      ∀ latency ∈ 0 :: s.latencies.map (·.2), latency ≤ s.maxLatency := by
  have balanced := reached_balanced reached
  refine ⟨balanced.byMethod.symm, ?_, ?_, balanced.leaderChanged, Stats.shown_eq, ?_⟩
  · have calls : t.errands.map Errand.calls = t.errands.map fun e => e.failures + e.answers := by
      apply List.map_congr_left
      intro e among
      rw [(balanced.sound e among).calls_eq, Errand.underway_of_over (settled e among),
        Nat.add_zero]
    rw [balanced.sent, balanced.failed, total, calls, List.sum_map_add, total, total]
  · have none : t.total Errand.pausing = 0 := by
      apply List.sum_eq_zero
      intro n listed
      obtain ⟨e, among, rfl⟩ := List.mem_map.mp listed
      exact Errand.pausing_of_over (settled e among)
    have retries := balanced.retries
    rw [balanced.sent]
    omega
  · intro α δ limit requests s ended among
    have recorded : Scatter.Recorded s ended := balanced.sound _ among
    have calls := (balanced.sound _ among).calls_eq
    rw [Errand.underway_of_over (settled _ among)] at calls
    have none : s.flights = [] := List.isEmpty_iff.mp (settled _ among)
    have made := recorded.made
    rw [none, List.length_nil, Nat.add_zero] at made
    have lengths := congrArg List.length recorded.latencies
    rw [List.length_map, List.length_map] at lengths
    refine ⟨made, recorded.responses, recorded.latencies, lengths.symm, ?_, ?_⟩
    · rw [recorded.responses]
      simp only [Errand.calls, Errand.failures, Errand.answers] at calls
      omega
    · rw [recorded.maxLatency, ← recorded.latencies]
      exact Int64.foldl_max_spec _ 0

namespace Sample

open Scatter.Sample (near far asked catalog estimates)

def believed (stats : Stats) : Estimates := { estimates with stats }

def down : Fault := .rpcFailed (.reported "down")

def elsewhere : StorageReply Unit := ⟨[⟨1, .leaderChanged, some far⟩], 5, ()⟩

def beat (retries : Nat) : Sending := ⟨"heartBeat", .metaService true, near, retries⟩

/-! The first host of a request to two says that a partition has moved; another request fails and
rests; the second host is down; the other request goes on; the last calls of both are answered. -/

def opened : Scatter Nat Unit × Stats := Scatter.start "getProps" asked .zero

def moved : Scatter Nat Unit × Estimates :=
  opened.1.receive 3 catalog 0 (.ok elsewhere) (believed (opened.2.countSent "heartBeat"))

def failed : Estimates × Turn (StorageReply Unit) :=
  (beat 0).receive 1 10 catalog 0 (believed moved.2.stats) (.error down)

def lost : Scatter Nat Unit × Estimates :=
  moved.1.receive 3 catalog 1 (.error down) (believed failed.1.stats)

def ended : Scatter Nat Unit × Estimates :=
  lost.1.receive 3 catalog 2 (.ok ⟨[], 7, ()⟩) (believed (lost.2.stats.countSent "heartBeat"))

def heard : Estimates × Turn (StorageReply Unit) :=
  (beat 1).receive 1 10 catalog 0 (believed ended.2.stats) (.ok elsewhere)

def errands (s : Scatter Nat Unit) (ended : List (Scatter.Ended Nat Unit))
    (turn : Turn (StorageReply Unit)) (outcomes : List (Except Fault (StorageReply Unit))) :
    List Errand :=
  [.scattered 3 asked s ended, .single 1 turn outcomes]

theorem reached_heard : ∃ f g h, Reached ⟨heard.1.stats,
    errands ended.1 [⟨f, .ok elsewhere⟩, ⟨g, .error down⟩, ⟨h, .ok ⟨[], 7, ()⟩⟩] heard.2
      [.error down, .ok elsewhere]⟩ := by
  have begun : Reached ⟨opened.2.countSent "heartBeat",
      errands opened.1 [] (.resend (beat 0)) []⟩ :=
    (Reached.idle.begins (.scattered 3 "getProps" asked)).begins
      (.single 1 "heartBeat" (.metaService true) near (believed _) rfl)
  have first : 0 ∈ opened.1.flights.map Flight.ticket := by decide +kernel
  have second : 1 ∈ moved.1.flights.map Flight.ticket := by decide +kernel
  have third : 2 ∈ lost.1.flights.map Flight.ticket := by decide +kernel
  obtain ⟨f, step⟩ := Errand.Step.gathers_ticket first 3 asked [] catalog
    (believed (opened.2.countSent "heartBeat")) (.ok elsewhere)
  have sent_again : Reached ⟨moved.2.stats,
      errands moved.1 [⟨f, .ok elsewhere⟩] (.resend (beat 0)) []⟩ :=
    @Reached.goes _ _ [] [_] _ _ begun step
  have rests : Reached ⟨failed.1.stats,
      errands moved.1 [⟨f, .ok elsewhere⟩] failed.2 [.error down]⟩ :=
    @Reached.goes _ _ [_] [] _ _ sent_again (.hears 10 catalog 0 (believed _) rfl (.error down))
  obtain ⟨g, step⟩ := Errand.Step.gathers_ticket second 3 asked [⟨f, .ok elsewhere⟩] catalog
    (believed failed.1.stats) (.error down)
  have gave_up : Reached ⟨lost.2.stats,
      errands lost.1 [⟨f, .ok elsewhere⟩, ⟨g, .error down⟩] (.pause 10 (beat 1)) [.error down]⟩ :=
    @Reached.goes _ _ [] [_] _ _ rests step
  have woken : Reached ⟨lost.2.stats.countSent "heartBeat",
      errands lost.1 [⟨f, .ok elsewhere⟩, ⟨g, .error down⟩] (.resend (beat 1)) [.error down]⟩ :=
    @Reached.goes _ _ [_] [] _ _ gave_up (.wakes (believed _) rfl)
  obtain ⟨h, step⟩ := Errand.Step.gathers_ticket third 3 asked
    [⟨f, .ok elsewhere⟩, ⟨g, .error down⟩] catalog
    (believed (lost.2.stats.countSent "heartBeat")) (.ok ⟨[], 7, ()⟩)
  have gathered : Reached ⟨ended.2.stats, errands ended.1
      [⟨f, .ok elsewhere⟩, ⟨g, .error down⟩, ⟨h, .ok ⟨[], 7, ()⟩⟩] (.resend (beat 1))
      [.error down]⟩ :=
    @Reached.goes _ _ [] [_] _ _ woken step
  exact ⟨f, g, h, @Reached.goes _ _ [_] [] _ _ gathered
    (.hears 10 catalog 0 (believed _) rfl (.ok elsewhere))⟩

end Sample

/-- A request to two hosts, one of whose partitions moves while the other host is down, beside
one to a single host, which is down at first and then reports another leader. -/
theorem counters_add_up_in_sample : ∃ t, Reached t ∧ (∀ e ∈ t.errands, e.isOver = true) ∧
    t.stats.sent = 5 ∧ t.stats.failed = 2 ∧ t.total Errand.answers = 3 ∧
    t.total Errand.originals = 3 ∧ t.stats.retries = 2 ∧ t.stats.leaderChanged = 2 := by
  obtain ⟨f, g, h, reached⟩ := Sample.reached_heard
  have settled : ∀ e ∈ Sample.errands Sample.ended.1 [⟨f, .ok Sample.elsewhere⟩,
      ⟨g, .error Sample.down⟩, ⟨h, .ok ⟨[], 7, ()⟩⟩] Sample.heard.2
      [.error Sample.down, .ok Sample.elsewhere], e.isOver = true := by
    intro e among
    rcases List.mem_cons.mp among with rfl | among
    · change Sample.ended.1.finished = true
      decide +kernel
    · rw [List.mem_singleton.mp among]
      change Sample.heard.2.isOver = true
      decide +kernel
  obtain ⟨-, answered, retried, changed, -⟩ := counters_add_up reached settled
  have sent : Sample.heard.1.stats.sent = 5 := by decide +kernel
  refine ⟨_, reached, settled, sent, ?_, rfl, rfl, ?_, changed⟩
  · change Sample.heard.1.stats.sent = _ + 3 at answered
    omega
  · change Sample.heard.1.stats.sent = 3 + _ at retried
    omega

end Traffic

end ClusterClient
