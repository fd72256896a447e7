import ClusterClient.Scatter
import Mathlib.Data.List.Range
import Mathlib.Data.List.Nodup
/-!
The courses that a scattered request can take, and what one outcome does to it. Calls
end in any order, and between two outcomes other tasks may change the catalog and
everything that is believed about leaders.
-/
namespace ClusterClient

/-- Whether a partition is to be sent again because of this entry of an answer. -/
def PartFailure.moves (last : Bool) (x : PartFailure) : Bool :=
  x.status == .leaderChanged && !last

inductive Count
  | sent (method : String)
  | failed
  | leaderChanged
  | retry

def Stats.count (s : Stats) : Count → Stats
  | .sent method => s.countSent method
  | .failed => s.countFailed
  | .leaderChanged => s.countLeaderChanged
  | .retry => s.countRetry

namespace Scatter

variable {α δ : Type}

structure Answered (α δ : Type) where
  flight : Flight α
  reply : StorageReply δ

/-- The states of a request with the calls that were answered so far. Answers are as
`allowed`; the calls that failed are not recorded. -/
inductive Course (allowed : Flight α → StorageReply δ → Prop) (limit : Nat) (method : String)
    (requests : Table Host (Batch α)) : Scatter α δ → List (Answered α δ) → Prop
  | start (stats : Stats) :
    Course allowed limit method requests (start method requests stats).1 []
  | failed {s : Scatter α δ} {log : List (Answered α δ)} {f : Flight α}
      (course : Course allowed limit method requests s log) (under : f ∈ s.flights)
      (catalog : Catalog) (e : Estimates) (fault : Fault) :
    Course allowed limit method requests
      (s.receive limit catalog f.ticket (.error fault) e).1 log
  | answered {s : Scatter α δ} {log : List (Answered α δ)} {f : Flight α}
      (course : Course allowed limit method requests s log) (under : f ∈ s.flights)
      (catalog : Catalog) (e : Estimates) (reply : StorageReply δ) (fits : allowed f reply) :
    Course allowed limit method requests
      (s.receive limit catalog f.ticket (.ok reply) e).1 (log ++ [⟨f, reply⟩])

/-- Calls of one wave, given by origin, host and request, with tickets in order. -/
def sent (ticket wave : Nat) : List (Host × Host × Batch α) → List (Flight α)
  | [] => []
  | (origin, host, request) :: rest =>
    ⟨ticket, origin, host, wave, request⟩ :: sent (ticket + 1) wave rest

theorem sent_requests (ticket wave : Nat) (calls : List (Host × Host × Batch α)) :
    (sent ticket wave calls).map Flight.request = calls.map (·.2.2) := by
  induction calls generalizing ticket with
  | nil => rfl
  | cons c rest ih => simp [sent, ih]

theorem sent_tickets (ticket wave : Nat) (calls : List (Host × Host × Batch α)) :
    (sent ticket wave calls).map Flight.ticket = List.range' ticket calls.length := by
  induction calls generalizing ticket with
  | nil => rfl
  | cons c rest ih => simp [sent, ih, List.range'_succ]

def opening (requests : Table Host (Batch α)) : List (Host × Host × Batch α) :=
  requests.entries.map fun e => (e.1, e.1, e.2)

def rerouted (f : Flight α) (targets : Router.HostParts) : List (Host × Host × Batch α) :=
  targets.entries.map fun t => (f.origin, t.1, f.request.extract t.2)

theorem dispatch_all (method : String) (calls : List (Host × Batch α)) (s : Scatter α δ)
    (stats : Stats) :
    calls.foldl (fun (s, stats) (host, request) =>
      (s.dispatch host host 0 request, stats.countSent method)) (s, stats) =
    ({ s with
      dispatched := s.dispatched + calls.length
      flights := s.flights ++ sent s.dispatched 0 (calls.map fun e => (e.1, e.1, e.2)) },
      (calls.map fun _ => Count.sent method).foldl Stats.count stats) := by
  induction calls generalizing s stats with
  | nil => simp [sent]
  | cons c rest ih =>
    rw [List.foldl_cons, ih]
    simp [dispatch, sent, Stats.count, Nat.add_comm, Nat.add_left_comm]

theorem start_eq (method : String) (requests : Table Host (Batch α)) (stats : Stats) :
    (start method requests stats : Scatter α δ × Stats) =
      (⟨method, (distinct (requests.values.flatMap Batch.partIds)).length,
        (opening requests).length, sent 0 0 (opening requests), ∅, [], [], 0⟩,
        ((opening requests).map fun _ => Count.sent method).foldl Stats.count stats) := by
  simp only [start]
  rw [dispatch_all]
  simp [opening, Function.comp_def]

theorem resend_eq (f : Flight α) (s : Scatter α δ) (stats : Stats) (targets : Router.HostParts) :
    resend f s stats targets =
      ({ s with
        dispatched := s.dispatched + (rerouted f targets).length
        flights := s.flights ++ sent s.dispatched (f.wave + 1) (rerouted f targets) },
        ((rerouted f targets).flatMap fun _ => [.retry, .sent s.method]).foldl Stats.count
          stats) := by
  unfold resend rerouted
  generalize targets.entries = l
  induction l generalizing s stats with
  | nil => simp [sent]
  | cons t rest ih =>
    rw [List.foldl_cons, ih]
    simp [dispatch, sent, Stats.count, Nat.add_comm, Nat.add_left_comm]

/-- The entries of an answer that mark their partition. -/
def marked (last : Bool) (failures : List PartFailure) : List (PartId × Status) :=
  (failures.filter fun x => !x.moves last).map fun x => (x.part, x.status)

/-- The partitions that an answer asks to be sent again. -/
def moving (last : Bool) (failures : List PartFailure) : List PartId :=
  (failures.filter fun x => x.moves last).map PartFailure.part

/-- What an answer has to say about leaders. -/
def hinted (failures : List PartFailure) : List (PartId × Option Host) :=
  (failures.filter fun x => x.status == .leaderChanged).map fun x => (x.part, x.leader)

def follows (space : SpaceId) (l : Leaders) (hints : List (PartId × Option Host)) : Leaders :=
  hints.foldl (fun l hint => Leaders.follow l space hint.1 hint.2) l

theorem foldl_note (last : Bool) (space : SpaceId) (failures : List PartFailure)
    (s : Scatter α δ) (e : Estimates) (moved : List PartId) :
    failures.foldl (fun (s, e, moved) x => note last space s e moved x) (s, e, moved) =
      ({ s with failed := s.failed.insertAll (marked last failures) },
        { e with
          leaders := follows space e.leaders (hinted failures)
          stats := ((hinted failures).map fun _ => Count.leaderChanged).foldl Stats.count e.stats },
        moved ++ moving last failures) := by
  induction failures generalizing s e moved with
  | nil => simp [marked, moving, hinted, follows, Table.insertAll]
  | cons x rest ih =>
    by_cases changed : x.status = .leaderChanged
    · cases last with
      | true =>
        have first : note true space s e moved x =
            ({ s with failed := s.failed.insert x.part .leaderChanged },
              { e with
                stats := e.stats.countLeaderChanged
                leaders := Leaders.follow e.leaders space x.part x.leader }, moved) := by
          simp [note, changed, mark]
        simp only [List.foldl_cons, first, ih]
        simp [marked, moving, hinted, follows, Table.insertAll, Stats.count, PartFailure.moves,
          changed]
      | false =>
        have first : note false space s e moved x =
            (s, { e with
              stats := e.stats.countLeaderChanged
              leaders := Leaders.follow e.leaders space x.part x.leader }, moved ++ [x.part]) := by
          simp [note, changed]
        simp only [List.foldl_cons, first, ih]
        simp [marked, moving, hinted, follows, Stats.count, PartFailure.moves, changed]
    · have first : note last space s e moved x =
          ({ s with failed := s.failed.insert x.part x.status }, e, moved) := by
        simp [note, changed, mark]
      simp only [List.foldl_cons, first, ih]
      simp [marked, moving, hinted, Table.insertAll, PartFailure.moves, changed]

/-- What the outcome of a call leads to: partitions that are marked, what is learnt about
leaders, calls that are made, given by origin, host and request, and what is counted. -/
structure Upshot (α : Type) where
  marks : List (PartId × Status)
  hints : List (PartId × Option Host)
  calls : List (Host × Host × Batch α)
  counts : List Count

/-- Without an answer all partitions have failed. With one, those that moved are sent again
to their targets if each of them has one, and have failed if not. -/
def upshot (limit : Nat) (catalog : Catalog) (method : String) (leaders : Leaders)
    (f : Flight α) : Except Fault (StorageReply δ) → Upshot α
  | .error _ => ⟨f.request.partIds.map fun p => (p, .rpcFailure), [], [], [.failed]⟩
  | .ok reply =>
    let last := decide (limit ≤ f.wave + 1)
    let marks := marked last reply.failed
    let hints := hinted reply.failed
    let moved := moving last reply.failed
    let changed := hints.map fun _ => Count.leaderChanged
    match Router.clusterParts catalog (follows f.request.space leaders hints) f.request.space
        moved with
    | .ok targets =>
      let calls := rerouted f targets
      ⟨marks, hints, calls, changed ++ calls.flatMap fun _ => [.retry, .sent method]⟩
    | .error fault => ⟨marks ++ moved.map fun p => (p, fault.status), hints, [], changed⟩

theorem upshot_hints (limit : Nat) (catalog : Catalog) (method : String) (leaders : Leaders)
    (f : Flight α) (reply : StorageReply δ) :
    (upshot limit catalog method leaders f (.ok reply)).hints = hinted reply.failed := by
  simp only [upshot]
  split <;> rfl

/-- All calls that are made are parts of the one that has come to its end. -/
theorem upshot_extract {limit : Nat} {catalog : Catalog} {method : String} {leaders : Leaders}
    {f : Flight α} {outcome : Except Fault (StorageReply δ)} {c : Host × Host × Batch α}
    (hc : c ∈ (upshot limit catalog method leaders f outcome).calls) :
    ∃ parts, c = (f.origin, c.2.1, f.request.extract parts) := by
  cases outcome with
  | error fault => cases hc
  | ok reply =>
    simp only [upshot] at hc
    split at hc
    · obtain ⟨t, _, rfl⟩ := List.mem_map.mp hc
      exact ⟨t.2, rfl⟩
    · cases hc

/-- The answer that came, if one came. -/
def replies : Except Fault (StorageReply δ) → List (StorageReply δ)
  | .error _ => []
  | .ok reply => [reply]

theorem clusterParts_nil (catalog : Catalog) (leaders : Leaders) (space : SpaceId) :
    Router.clusterParts catalog leaders space [] = .ok ∅ ∨
      ∃ fault, Router.clusterParts catalog leaders space [] = .error fault := by
  unfold Router.clusterParts
  cases catalog.space space with
  | ok s => exact .inl rfl
  | error fault => exact .inr ⟨fault, rfl⟩

/-- All that taking the outcome of a call does. -/
theorem settle_eq (limit : Nat) (catalog : Catalog) (f : Flight α) (s : Scatter α δ)
    (e : Estimates) (outcome : Except Fault (StorageReply δ)) :
    settle limit catalog f s e outcome =
      let u := upshot limit catalog s.method e.leaders f outcome
      ({ s with
        dispatched := s.dispatched + u.calls.length
        flights := s.flights ++ sent s.dispatched (f.wave + 1) u.calls
        failed := s.failed.insertAll u.marks
        responses := s.responses ++ replies outcome
        latencies := s.latencies ++ (replies outcome).map fun r => (f.host, r.latency)
        maxLatency := (replies outcome).foldl (fun m r => max m r.latency) s.maxLatency },
        { e with
          leaders := follows f.request.space e.leaders u.hints
          stats := u.counts.foldl Stats.count e.stats }) := by
  cases outcome with
  | error fault =>
    simp [settle, upshot, replies, mark, sent, follows, Stats.count, Table.insertAll,
      List.foldl_map]
  | ok reply =>
    simp only [settle, foldl_note, List.nil_append, upshot, replies]
    by_cases still : moving (decide (limit ≤ f.wave + 1)) reply.failed = []
    · rw [if_pos (by simpa using still), still]
      rcases clusterParts_nil catalog (follows f.request.space e.leaders (hinted reply.failed))
        f.request.space with routed | ⟨fault, routed⟩
      · have none : rerouted f ∅ = [] := rfl
        simp [routed, none, sent]
      · simp [routed, sent]
    · rw [if_neg (by simpa using still)]
      cases routed : Router.clusterParts catalog
          (follows f.request.space e.leaders (hinted reply.failed)) f.request.space
          (moving (decide (limit ≤ f.wave + 1)) reply.failed) with
      | ok targets => simp [resend_eq]
      | error fault => simp [mark, sent, Table.insertAll, List.foldl_map]

/-- Tickets tell calls apart, and those from the next one on are free. -/
structure Ticketed (flights : List (Flight α)) (next : Nat) : Prop where
  unique : (flights.map Flight.ticket).Nodup
  below : ∀ g ∈ flights, g.ticket < next

def others (f : Flight α) (flights : List (Flight α)) : List (Flight α) :=
  flights.filter fun g => g.ticket != f.ticket

theorem flights_perm {flights : List (Flight α)} (unique : (flights.map Flight.ticket).Nodup)
    {f : Flight α} (under : f ∈ flights) : flights.Perm (f :: others f flights) := by
  induction flights with
  | nil => cases under
  | cons g rest ih =>
    obtain ⟨fresh, unique⟩ := List.nodup_cons.mp unique
    rcases List.mem_cons.mp under with rfl | under
    · have kept : rest.filter (fun g => g.ticket != f.ticket) = rest := by
        refine List.filter_eq_self.mpr fun g hg => bne_iff_ne.mpr fun same => ?_
        exact fresh (same ▸ List.mem_map_of_mem hg)
      simp [others, kept]
    · have other : g.ticket ≠ f.ticket := fun same =>
        fresh (same ▸ List.mem_map_of_mem under)
      have kept : others f (g :: rest) = g :: others f rest := by simp [others, other]
      rw [kept]
      exact ((ih unique under).cons g).trans (.swap f g _)

theorem receive_under {s : Scatter α δ} (ticketed : Ticketed s.flights s.dispatched)
    {f : Flight α} (under : f ∈ s.flights) (limit : Nat) (catalog : Catalog)
    (outcome : Except Fault (StorageReply δ)) (e : Estimates) :
    s.receive limit catalog f.ticket outcome e =
      settle limit catalog f { s with flights := others f s.flights } e outcome := by
  have found : s.flights.find? (fun g : Flight α => g.ticket == f.ticket) = some f := by
    obtain ⟨g, hg⟩ := Option.isSome_iff_exists.mp
      (List.find?_isSome (p := fun g : Flight α => g.ticket == f.ticket) |>.mpr
        ⟨f, under, beq_self_eq_true f.ticket⟩)
    have same : g.ticket = f.ticket := by simpa using List.find?_some hg
    rw [hg, List.inj_on_of_nodup_map ticketed.unique (List.mem_of_find?_eq_some hg) under same]
  rw [receive, found]
  rfl

theorem others_ticketed {flights : List (Flight α)} {next : Nat} (h : Ticketed flights next)
    (f : Flight α) : Ticketed (others f flights) next where
  unique := h.unique.sublist (List.filter_sublist.map _)
  below g hg := h.below g (List.mem_of_mem_filter hg)

theorem sent_ticketed {flights : List (Flight α)} {next : Nat} (h : Ticketed flights next)
    (wave : Nat) (calls : List (Host × Host × Batch α)) :
    Ticketed (flights ++ sent next wave calls) (next + calls.length) := by
  have tickets : ∀ g ∈ sent next wave calls,
      next ≤ g.ticket ∧ g.ticket < next + calls.length := fun g hg => by
    have := List.mem_map_of_mem (f := Flight.ticket) hg
    rwa [sent_tickets, List.mem_range'_1] at this
  constructor
  · rw [List.map_append, List.nodup_append]
    refine ⟨h.unique, by rw [sent_tickets]; exact List.nodup_range', ?_⟩
    intro t old t' new same
    obtain ⟨g, hg, rfl⟩ := List.mem_map.mp old
    obtain ⟨g', hg', rfl⟩ := List.mem_map.mp new
    have := h.below g hg
    have := tickets g' hg'
    omega
  · intro g hg
    rcases List.mem_append.mp hg with hg | hg
    · have := h.below g hg
      omega
    · exact (tickets g hg).2

theorem settle_ticketed {s : Scatter α δ} (h : Ticketed s.flights s.dispatched) (limit : Nat)
    (catalog : Catalog) (f : Flight α) (e : Estimates)
    (outcome : Except Fault (StorageReply δ)) :
    Ticketed (settle limit catalog f s e outcome).1.flights
      (settle limit catalog f s e outcome).1.dispatched := by
  rw [settle_eq]
  exact sent_ticketed h (f.wave + 1) _

variable {allowed : Flight α → StorageReply δ → Prop} {limit : Nat} {method : String}
  {requests : Table Host (Batch α)} {s : Scatter α δ} {log : List (Answered α δ)}

theorem course_ticketed (h : Course allowed limit method requests s log) :
    Ticketed s.flights s.dispatched := by
  induction h with
  | start stats =>
    rw [start_eq]
    have none : Ticketed ([] : List (Flight α)) 0 := ⟨List.nodup_nil, by simp⟩
    simpa using sent_ticketed none 0 (opening requests)
  | failed _ under catalog e fault ih =>
    rw [receive_under ih under]
    exact settle_ticketed (others_ticketed ih _) limit catalog _ e _
  | answered _ under catalog e reply _ ih =>
    rw [receive_under ih under]
    exact settle_ticketed (others_ticketed ih _) limit catalog _ e _

end Scatter

end ClusterClient
