import ClusterClient.Proofs.Course
import ClusterClient.Proofs.Routing
import Mathlib.Logic.Relation
/-!
A scattered request with all the calls that were made for it. Whatever an answer says, a
partition that it names is marked as failed or goes into one call of the next wave, and no
other partition is sent again.
-/
namespace ClusterClient

/-- Which request a call descends from, where it goes and what it asks for. -/
def Flight.call {α : Type} (f : Flight α) : Host × Host × Batch α := (f.origin, f.host, f.request)

namespace Scatter

variable {α δ : Type}

theorem sent_calls (ticket wave : Nat) (calls : List (Host × Host × Batch α)) :
    (sent ticket wave calls).map Flight.call = calls := by
  induction calls generalizing ticket with
  | nil => rfl
  | cons c rest ih => simp [sent, ih, Flight.call]

theorem wave_of_sent {ticket wave : Nat} {calls : List (Host × Host × Batch α)} {g : Flight α}
    (hg : g ∈ sent ticket wave calls) : g.wave = wave := by
  induction calls generalizing ticket with
  | nil => cases hg
  | cons c rest ih =>
    rcases List.mem_cons.mp hg with rfl | hg
    · rfl
    · exact ih hg

theorem ticket_of_sent {ticket wave : Nat} {calls : List (Host × Host × Batch α)} {g : Flight α}
    (hg : g ∈ sent ticket wave calls) : ticket ≤ g.ticket := by
  have := List.mem_map_of_mem (f := Flight.ticket) hg
  rw [sent_tickets, List.mem_range'_1] at this
  exact this.1

theorem call_of_sent {ticket wave : Nat} {calls : List (Host × Host × Batch α)} {g : Flight α}
    (hg : g ∈ sent ticket wave calls) : g.call ∈ calls := by
  have := List.mem_map_of_mem (f := Flight.call) hg
  rwa [sent_calls] at this

/-- The calls that ask for a partition. -/
def asking (p : PartId) (calls : List (Host × Host × Batch α)) : List (Host × Host × Batch α) :=
  calls.filter fun c => decide (p ∈ c.2.2.partIds)

section Upshot

variable {limit : Nat} {catalog : Catalog} {method : String} {leaders : Leaders} {f : Flight α}
  {outcome : Except Fault (StorageReply δ)}

theorem parts_of_upshot {c : Host × Host × Batch α}
    (hc : c ∈ (upshot limit catalog method leaders f outcome).calls) :
    c.1 = f.origin ∧ ∀ p ∈ c.2.2.partIds, p ∈ f.request.partIds := by
  obtain ⟨parts, eq⟩ := upshot_extract hc
  rw [eq]
  exact ⟨rfl, fun p hp => ((f.request.mem_partIds_extract parts p).mp hp).2⟩

/-- After the last wave nothing is sent again. -/
theorem wave_of_upshot {c : Host × Host × Batch α}
    (hc : c ∈ (upshot limit catalog method leaders f outcome).calls) : f.wave + 1 < limit := by
  refine Nat.lt_of_not_le fun last => ?_
  cases outcome with
  | error fault => cases hc
  | ok reply =>
    have still : moving (decide (limit ≤ f.wave + 1)) reply.failed = [] := by
      simp [moving, PartFailure.moves, last]
    simp only [upshot, still] at hc
    rcases clusterParts_nil catalog (follows f.request.space leaders (hinted reply.failed))
      f.request.space with routed | ⟨fault, routed⟩
    · rw [routed] at hc
      cases hc
    · rw [routed] at hc
      cases hc

theorem asking_upshot_of_not_mem {p : PartId} (foreign : p ∉ f.request.partIds) :
    asking p (upshot limit catalog method leaders f outcome).calls = [] := by
  refine List.filter_eq_nil_iff.mpr fun c hc => ?_
  rw [decide_eq_true_iff]
  exact fun hp => foreign ((parts_of_upshot hc).2 p hp)

/-- A partition that moves goes into the one call that is made to its target. -/
theorem asking_rerouted {parts : List PartId} {targets : Router.HostParts} {id : SpaceId}
    (routed : Router.clusterParts catalog leaders id parts = .ok targets) {p : PartId}
    (hp : p ∈ parts) (own : p ∈ f.request.partIds) :
    ∃ space host ps, catalog.space id = .ok space ∧ Router.target leaders space p = .ok host ∧
      asking p (rerouted f targets) = [(f.origin, host, f.request.extract ps)] := by
  obtain ⟨space, host, ps, hs, ht, single⟩ := Router.clusterParts_single routed hp
  refine ⟨space, host, ps, hs, ht, ?_⟩
  have same : ((fun c : Host × Host × Batch α => decide (p ∈ c.2.2.partIds)) ∘
      fun t : Host × List PartId => (f.origin, t.1, f.request.extract t.2)) =
      fun t => decide (p ∈ t.2) := by
    funext t
    simp [Batch.mem_partIds_extract, own]
  rw [asking, rerouted, List.filter_map, same, single]
  rfl

theorem mem_moving_or_marked {reply : StorageReply δ} {p : PartId} (last : Bool)
    (listed : p ∈ reply.failed.map PartFailure.part) :
    p ∈ moving last reply.failed ∨ p ∈ (marked last reply.failed).map (·.1) := by
  obtain ⟨x, hx, rfl⟩ := List.mem_map.mp listed
  cases moves : x.moves last with
  | true => exact .inl (List.mem_map_of_mem (List.mem_filter.mpr ⟨hx, moves⟩))
  | false =>
    refine .inr (List.mem_map.mpr ⟨(x.part, x.status), ?_, rfl⟩)
    exact List.mem_map.mpr ⟨x, List.mem_filter.mpr ⟨hx, by simp [moves]⟩, rfl⟩

/-- Calls are made for partitions that move, and for no other. -/
theorem asking_of_not_moving (limit : Nat) (catalog : Catalog) (method : String)
    (leaders : Leaders) (f : Flight α) {reply : StorageReply δ} {p : PartId}
    (still : p ∉ moving (decide (limit ≤ f.wave + 1)) reply.failed) :
    asking p (upshot limit catalog method leaders f (.ok reply)).calls = [] := by
  refine List.filter_eq_nil_iff.mpr fun c hc => ?_
  rw [decide_eq_true_iff]
  simp only [upshot] at hc
  split at hc
  · rename_i targets routed
    obtain ⟨t, ht, rfl⟩ := List.mem_map.mp hc
    intro hp
    have listed := ((f.request.mem_partIds_extract t.2 p).mp hp).1
    have grouped := (Router.clusterParts_perm routed).mem_iff.mp
      (List.mem_flatten.mpr ⟨t.2, List.mem_map_of_mem ht, listed⟩)
    exact still (mem_distinct.mp grouped)
  · cases hc

/-- What becomes of a partition when the call that asked for it ends: it is sent again in
just one call, or it has failed, or it was answered for. -/
theorem upshot_cases (limit : Nat) (catalog : Catalog) (method : String) (leaders : Leaders)
    (f : Flight α) (outcome : Except Fault (StorageReply δ)) {p : PartId}
    (own : p ∈ f.request.partIds) :
    (∃ c, asking p (upshot limit catalog method leaders f outcome).calls = [c]) ∨
      asking p (upshot limit catalog method leaders f outcome).calls = [] ∧
        (p ∈ (upshot limit catalog method leaders f outcome).marks.map (·.1) ∨
          ∃ reply, outcome = .ok reply ∧ p ∉ reply.failed.map PartFailure.part) := by
  cases outcome with
  | error fault =>
    refine .inr ⟨rfl, .inl (List.mem_map.mpr ⟨(p, .rpcFailure), ?_, rfl⟩)⟩
    exact List.mem_map_of_mem own
  | ok reply =>
    by_cases moves : p ∈ moving (decide (limit ≤ f.wave + 1)) reply.failed
    · simp only [upshot]
      split
      · rename_i targets routed
        obtain ⟨_, host, ps, _, _, single⟩ := asking_rerouted routed moves own
        exact .inl ⟨_, single⟩
      · rename_i fault _
        refine .inr ⟨rfl, .inl (List.mem_map.mpr ⟨(p, fault.status), ?_, rfl⟩)⟩
        exact List.mem_append_right _ (List.mem_map_of_mem moves)
    · have none := asking_of_not_moving limit catalog method leaders f moves
      refine .inr ⟨none, ?_⟩
      by_cases listed : p ∈ reply.failed.map PartFailure.part
      · left
        have here := (mem_moving_or_marked (decide (limit ≤ f.wave + 1)) listed).resolve_left moves
        simp only [upshot]
        split
        · exact here
        · rw [List.map_append]
          exact List.mem_append_left _ here
      · exact .inr ⟨reply, rfl, listed⟩

end Upshot

/-- A call that has come to its end, and what came of it. -/
structure Ended (α δ : Type) where
  flight : Flight α
  outcome : Except Fault (StorageReply δ)

structure Ledger (α δ : Type) where
  state : Scatter α δ
  estimates : Estimates
  /-- All calls that were made so far, and those that have ended, in order. -/
  calls : List (Flight α)
  ended : List (Ended α δ)

namespace Ledger

def opened (method : String) (requests : Table Host (Batch α)) (e : Estimates) : Ledger α δ :=
  let (state, stats) := start method requests e.stats
  ⟨state, { e with stats }, state.flights, []⟩

/-- Takes the outcome of a call. The calls that are new have tickets that were free. -/
def take (l : Ledger α δ) (limit : Nat) (catalog : Catalog) (e : Estimates) (f : Flight α)
    (outcome : Except Fault (StorageReply δ)) : Ledger α δ :=
  let (state, estimates) := l.state.receive limit catalog f.ticket outcome e
  let made := state.flights.filter fun g => decide (l.state.dispatched ≤ g.ticket)
  ⟨state, estimates, l.calls ++ made, l.ended ++ [⟨f, outcome⟩]⟩

theorem opened_eq (method : String) (requests : Table Host (Batch α)) (e : Estimates) :
    (opened method requests e : Ledger α δ) =
      ⟨⟨method, (distinct (requests.values.flatMap Batch.partIds)).length,
        (opening requests).length, sent 0 0 (opening requests), ∅, [], [], 0⟩,
        { e with
          stats := ((opening requests).map fun _ => .sent method).foldl Stats.count e.stats },
        sent 0 0 (opening requests), []⟩ := by
  simp only [opened]
  rw [start_eq]

theorem take_eq {l : Ledger α δ} (ticketed : Ticketed l.state.flights l.state.dispatched)
    {f : Flight α} (under : f ∈ l.state.flights) (limit : Nat) (catalog : Catalog) (e : Estimates)
    (outcome : Except Fault (StorageReply δ)) :
    l.take limit catalog e f outcome =
      let u := upshot limit catalog l.state.method e.leaders f outcome
      let made := sent l.state.dispatched (f.wave + 1) u.calls
      ⟨{ l.state with
        dispatched := l.state.dispatched + u.calls.length
        flights := others f l.state.flights ++ made
        failed := l.state.failed.insertAll u.marks
        responses := l.state.responses ++ replies outcome
        latencies := l.state.latencies ++ (replies outcome).map fun r => (f.host, r.latency)
        maxLatency := (replies outcome).foldl (fun m r => max m r.latency) l.state.maxLatency },
        { e with
          leaders := follows f.request.space e.leaders u.hints
          stats := u.counts.foldl Stats.count e.stats },
        l.calls ++ made, l.ended ++ [⟨f, outcome⟩]⟩ := by
  have old : (others f l.state.flights).filter
      (fun g => decide (l.state.dispatched ≤ g.ticket)) = [] := by
    refine List.filter_eq_nil_iff.mpr fun g hg => ?_
    have := (others_ticketed ticketed f).below g hg
    simpa using this
  have new : ∀ calls : List (Host × Host × Batch α),
      (sent l.state.dispatched (f.wave + 1) calls).filter
        (fun g => decide (l.state.dispatched ≤ g.ticket)) =
      sent l.state.dispatched (f.wave + 1) calls := fun calls =>
    List.filter_eq_self.mpr fun g hg => decide_eq_true (ticket_of_sent hg)
  simp only [take]
  rw [receive_under ticketed under, settle_eq]
  simp [old, new]

/-- The outcome of some call is taken, whatever it is. Before that other tasks may have
changed the catalog and everything that is believed about leaders. -/
def Next (limit : Nat) (l l' : Ledger α δ) : Prop :=
  ∃ f ∈ l.state.flights, ∃ catalog e outcome, l' = l.take limit catalog e f outcome

inductive Reached (limit : Nat) (method : String) (requests : Table Host (Batch α)) :
    Ledger α δ → Prop
  | start (e : Estimates) : Reached limit method requests (opened method requests e)
  | next {l l' : Ledger α δ} (h : Reached limit method requests l) (step : Next limit l l') :
    Reached limit method requests l'

/-- The outcome of some call is taken, as `allowed`, while no other task is at work. -/
def Takes (allowed : Flight α → Except Fault (StorageReply δ) → Prop) (limit : Nat)
    (catalog : Catalog) (l l' : Ledger α δ) : Prop :=
  ∃ f ∈ l.state.flights, ∃ outcome, allowed f outcome ∧
    l' = l.take limit catalog l.estimates f outcome

theorem Takes.next {allowed : Flight α → Except Fault (StorageReply δ) → Prop} {limit : Nat}
    {catalog : Catalog} {l l' : Ledger α δ} (h : Takes allowed limit catalog l l') :
    Next limit l l' := by
  obtain ⟨f, under, outcome, _, rfl⟩ := h
  exact ⟨f, under, catalog, l.estimates, outcome, rfl⟩

theorem Takes.mono {allowed allowed' : Flight α → Except Fault (StorageReply δ) → Prop}
    (wider : ∀ f outcome, allowed f outcome → allowed' f outcome) {limit : Nat}
    {catalog : Catalog} {l l' : Ledger α δ} (h : Takes allowed limit catalog l l') :
    Takes allowed' limit catalog l l' := by
  obtain ⟨f, under, outcome, told, eq⟩ := h
  exact ⟨f, under, outcome, wider f outcome told, eq⟩

/-- The hosts answer a call by where it goes, what it asks for and its wave. -/
def Told (server : Host → Batch α → Nat → Except Fault (StorageReply δ)) (f : Flight α)
    (outcome : Except Fault (StorageReply δ)) : Prop :=
  outcome = server f.host f.request f.wave

/-- Takes the outcomes of the calls with these tickets, in this order. -/
def played (server : Host → Batch α → Nat → Except Fault (StorageReply δ)) (limit : Nat)
    (catalog : Catalog) (l : Ledger α δ) : List Nat → Ledger α δ
  | [] => l
  | ticket :: rest =>
    match l.state.flights.find? fun f => f.ticket == ticket with
    | some f =>
      let outcome := server f.host f.request f.wave
      played server limit catalog (l.take limit catalog l.estimates f outcome) rest
    | none => played server limit catalog l rest

theorem played_run (server : Host → Batch α → Nat → Except Fault (StorageReply δ)) (limit : Nat)
    (catalog : Catalog) (l : Ledger α δ) (tickets : List Nat) :
    Relation.ReflTransGen (Takes (Told server) limit catalog) l
      (played server limit catalog l tickets) := by
  induction tickets generalizing l with
  | nil => exact .refl
  | cons ticket rest ih =>
    unfold played
    split
    · rename_i f found
      exact .head ⟨f, List.mem_of_find?_eq_some found, _, rfl, rfl⟩ (ih _)
    · exact ih l

theorem reached_of_run {allowed : Flight α → Except Fault (StorageReply δ) → Prop} {limit : Nat}
    {catalog : Catalog} {method : String} {requests : Table Host (Batch α)} {l l' : Ledger α δ}
    (h : Reached limit method requests l)
    (run : Relation.ReflTransGen (Takes allowed limit catalog) l l') :
    Reached limit method requests l' := by
  induction run with
  | refl => exact h
  | tail _ step ih => exact ih.next step.next

theorem next_ticketed {limit : Nat} {l l' : Ledger α δ}
    (ticketed : Ticketed l.state.flights l.state.dispatched) (step : Next limit l l') :
    Ticketed l'.state.flights l'.state.dispatched := by
  obtain ⟨f, under, catalog, e, outcome, rfl⟩ := step
  rw [take_eq ticketed under]
  exact sent_ticketed (others_ticketed ticketed f) (f.wave + 1) _

theorem reached_ticketed {limit : Nat} {method : String} {requests : Table Host (Batch α)}
    {l : Ledger α δ} (h : Reached limit method requests l) :
    Ticketed l.state.flights l.state.dispatched := by
  induction h with
  | start e =>
    rw [opened_eq]
    have none : Ticketed ([] : List (Flight α)) 0 := ⟨List.nodup_nil, by simp⟩
    simpa using sent_ticketed none 0 (opening requests)
  | next _ step ih => exact next_ticketed ih step

end Ledger

end Scatter

end ClusterClient
