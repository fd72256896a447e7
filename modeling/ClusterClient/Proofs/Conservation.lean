import ClusterClient.Proofs.Course
import ClusterClient.Proofs.Routing
/-!
No partition of a scattered request is lost, and none is counted twice: each of them is
under way, failed or acknowledged, and at the end either failed or acknowledged by
exactly one answer.
-/
namespace ClusterClient

theorem Table.keys_insertAll_perm {κ α : Type} [Ordered κ] [DecidableEq κ] (t : Table κ α)
    {l : List (κ × α)} (nodup : (l.map (·.1)).Nodup) (new : ∀ k ∈ l.map (·.1), k ∉ t.keys) :
    (t.insertAll l).keys.Perm (t.keys ++ l.map (·.1)) := by
  have distinct : (t.keys ++ l.map (·.1)).Nodup := by
    refine List.nodup_append.mpr ⟨t.keys_nodup, nodup, fun k hk k' hk' same => ?_⟩
    exact new k' hk' (same ▸ hk)
  refine (List.perm_ext_iff_of_nodup (Table.keys_nodup _) distinct).mpr fun k => ?_
  rw [mem_keys_insertAll, List.mem_append, or_comm]

namespace Scatter

variable {α δ : Type}

def requested (requests : Table Host (Batch α)) : List PartId :=
  requests.values.flatMap Batch.partIds

/-- No partition is asked for in two of the requests. -/
def Disjoint (requests : Table Host (Batch α)) : Prop :=
  requests.values.Pairwise fun r r' => ∀ p ∈ r.partIds, p ∉ r'.partIds

def underway (flights : List (Flight α)) : List PartId :=
  flights.flatMap fun f => f.request.partIds

def Answered.acknowledged (a : Answered α δ) : List PartId :=
  a.flight.request.partIds.filter fun p => decide (p ∉ a.reply.failed.map PartFailure.part)

def acknowledged (log : List (Answered α δ)) : List PartId := log.flatMap Answered.acknowledged

/-- The answer names partitions of its own request only, and none of them twice. -/
structure Fair (f : Flight α) (reply : StorageReply δ) : Prop where
  own : ∀ x ∈ reply.failed, x.part ∈ f.request.partIds
  once : (reply.failed.map PartFailure.part).Nodup

theorem Fair.moving_nodup {f : Flight α} {reply : StorageReply δ} (fair : Fair f reply)
    (last : Bool) : (moving last reply.failed).Nodup :=
  fair.once.sublist (List.filter_sublist.map _)

theorem Fair.moving_own {f : Flight α} {reply : StorageReply δ} (fair : Fair f reply)
    (last : Bool) : ∀ p ∈ moving last reply.failed, p ∈ f.request.partIds := by
  intro p hp
  obtain ⟨x, hx, rfl⟩ := List.mem_map.mp hp
  exact fair.own x (List.mem_of_mem_filter hx)

theorem Fair.hinted_nodup {f : Flight α} {reply : StorageReply δ} (fair : Fair f reply) :
    ((hinted reply.failed).map (·.1)).Nodup := by
  rw [hinted, List.map_map]
  exact fair.once.sublist (List.filter_sublist.map _)

theorem Fair.hinted_own {f : Flight α} {reply : StorageReply δ} (fair : Fair f reply) :
    ∀ p ∈ (hinted reply.failed).map (·.1), p ∈ f.request.partIds := by
  intro p hp
  obtain ⟨hint, hh, rfl⟩ := List.mem_map.mp hp
  obtain ⟨x, hx, rfl⟩ := List.mem_map.mp hh
  exact fair.own x (List.mem_of_mem_filter hx)

/-- The requests made of grouped items share no partition. -/
theorem cluster_disjoint {catalog : Catalog} {leaders : Leaders} {id : SpaceId} {key : α → Bytes}
    {items : List α} {batches : Router.HostBatches α}
    (clustered : Router.cluster catalog leaders id key items = .ok batches) :
    Disjoint (Router.requests id batches) := by
  unfold Router.cluster at clustered
  cases found : catalog.space id with
  | error e =>
    rw [found] at clustered
    cases clustered
  | ok space =>
    rw [found] at clustered
    have targeted : ∀ e ∈ batches.entries, ∀ p ∈ e.2.keys,
        Router.target leaders space p = .ok e.1 := by
      intro e he p hp
      have at_host : batches.getD e.1 ∅ = e.2 := by
        rw [Table.getD, Table.get?_eq_some_iff.mpr he]
        rfl
      rw [← at_host] at hp
      exact (Router.target_of_clusterInto clustered hp).resolve_left fun h => by cases h
    simp only [Disjoint, Router.requests, Table.values, Table.mapValues, List.map_map]
    refine List.pairwise_map.mpr (batches.ascending.imp_of_mem fun {a b} ha hb lt p pa pb => ?_)
    have same := (targeted a ha p pa).symm.trans (targeted b hb p pb)
    exact Ordered.ne_of_before lt (Except.ok.inj same)

theorem requested_nodup {requests : Table Host (Batch α)} (disjoint : Disjoint requests) :
    (requested requests).Nodup := by
  refine List.nodup_flatMap.mpr ⟨fun r _ => r.partIds_nodup, disjoint.imp fun h p hp hp' => ?_⟩
  exact h p hp hp'

theorem disjoint_of_nodup {requests : Table Host (Batch α)} (h : (requested requests).Nodup) :
    Disjoint requests :=
  (List.nodup_flatMap.mp h).2.imp fun apart _ hp hp' => apart hp hp'

/-- All entries of an answer either mark or move their partition. -/
theorem marked_moved_perm (last : Bool) (failures : List PartFailure) :
    ((marked last failures).map (·.1) ++ moving last failures).Perm
      (failures.map PartFailure.part) := by
  have parts : (marked last failures).map (·.1) =
      (failures.filter fun x => !x.moves last).map PartFailure.part := by
    simp [marked]
  rw [parts, moving, ← List.map_append]
  refine List.Perm.map _ ?_
  exact List.perm_append_comm.trans (List.filter_append_perm (fun x => x.moves last) failures)

theorem answer_perm {f : Flight α} {reply : StorageReply δ} (fair : Fair f reply) :
    (Answered.acknowledged ⟨f, reply⟩ ++ reply.failed.map PartFailure.part).Perm
      f.request.partIds := by
  have named : (f.request.partIds.filter fun p =>
      !decide (p ∉ reply.failed.map PartFailure.part)).Perm
      (reply.failed.map PartFailure.part) := by
    refine (List.perm_ext_iff_of_nodup (f.request.partIds_nodup.filter _) fair.once).mpr
      fun p => ?_
    simp only [List.mem_filter, decide_not, Bool.not_not, decide_eq_true_eq]
    refine ⟨fun h => h.2, fun h => ⟨?_, h⟩⟩
    obtain ⟨x, hx, rfl⟩ := List.mem_map.mp h
    exact fair.own x hx
  exact (named.symm.append_left _).trans (List.filter_append_perm _ _)

theorem underway_sent (ticket wave : Nat) (calls : List (Host × Host × Batch α)) :
    underway (sent ticket wave calls) = calls.flatMap fun c => c.2.2.partIds := by
  have : underway (sent ticket wave calls) =
      ((sent ticket wave calls).map Flight.request).flatMap Batch.partIds := by
    simp [underway, List.flatMap_map]
  rw [this, sent_requests, List.flatMap_map]

/-- The calls that moved partitions are sent again with ask for just these. -/
theorem underway_rerouted {f : Flight α} {catalog : Catalog} {leaders : Leaders}
    {moved : List PartId} {targets : Router.HostParts}
    (routed : Router.clusterParts catalog leaders f.request.space moved = .ok targets)
    (nodup : moved.Nodup) (own : ∀ p ∈ moved, p ∈ f.request.partIds) (ticket wave : Nat) :
    (underway (sent ticket wave (rerouted f targets))).Perm moved := by
  rw [underway_sent, rerouted, List.flatMap_map]
  have grouped := Router.clusterParts_perm routed
  have each : ∀ t ∈ targets.entries, ((f.request.extract t.2).partIds).Perm t.2 := by
    intro t ht
    refine Batch.partIds_extract_perm _
      (Router.clusterParts_nodup routed (Table.get?_eq_some_iff.mpr ht)) fun p hp => ?_
    have member : p ∈ distinct moved :=
      grouped.mem_iff.mp (List.mem_flatten.mpr ⟨t.2, List.mem_map_of_mem ht, hp⟩)
    exact own p (mem_distinct.mp member)
  refine (List.Perm.flatMap_left _ each).trans ?_
  rw [List.flatMap_def]
  exact grouped.trans (distinct_perm nodup)

/-- The partitions that the outcome of a call is about, if it is no success for them. -/
def named (f : Flight α) : Except Fault (StorageReply δ) → List PartId
  | .error _ => f.request.partIds
  | .ok reply => reply.failed.map PartFailure.part

theorem mem_named {f : Flight α} {outcome : Except Fault (StorageReply δ)}
    (fair : ∀ reply, outcome = .ok reply → Fair f reply) :
    ∀ p ∈ named f outcome, p ∈ f.request.partIds := by
  intro p hp
  cases outcome with
  | error fault => exact hp
  | ok reply =>
    obtain ⟨x, hx, rfl⟩ := List.mem_map.mp hp
    exact (fair reply rfl).own x hx

theorem named_nodup {f : Flight α} {outcome : Except Fault (StorageReply δ)}
    (fair : ∀ reply, outcome = .ok reply → Fair f reply) : (named f outcome).Nodup := by
  cases outcome with
  | error fault => exact f.request.partIds_nodup
  | ok reply => exact (fair reply rfl).once

/-- Of the partitions that are named, some are marked and all others are sent again. -/
theorem upshot_parts {f : Flight α} {outcome : Except Fault (StorageReply δ)}
    (fair : ∀ reply, outcome = .ok reply → Fair f reply) (limit : Nat) (catalog : Catalog)
    (method : String) (leaders : Leaders) (ticket wave : Nat) :
    ((upshot limit catalog method leaders f outcome).marks.map (·.1) ++
      underway (sent ticket wave (upshot limit catalog method leaders f outcome).calls)).Perm
      (named f outcome) := by
  cases outcome with
  | error fault => simp [upshot, named, underway, sent, Function.comp_def]
  | ok reply =>
    have fair := fair reply rfl
    have all := marked_moved_perm (decide (limit ≤ f.wave + 1)) reply.failed
    simp only [upshot, named]
    split
    · rename_i targets routed
      have again := underway_rerouted routed (fair.moving_nodup _) (fair.moving_own _) ticket wave
      exact (again.append_left _).trans all
    · simpa [underway, sent, Function.comp_def] using all

section Fair

variable {f : Flight α} {outcome : Except Fault (StorageReply δ)} {limit : Nat}
  {catalog : Catalog} {method : String} {leaders : Leaders}
  (fair : ∀ reply, outcome = .ok reply → Fair f reply)

include fair

theorem marks_nodup (limit : Nat) (catalog : Catalog) (method : String) (leaders : Leaders) :
    ((upshot limit catalog method leaders f outcome).marks.map (·.1)).Nodup := by
  have parts := upshot_parts fair limit catalog method leaders 0 0
  exact (List.nodup_append.mp (parts.nodup_iff.mpr (named_nodup fair))).1

theorem marks_own {e : PartId × Status}
    (he : e ∈ (upshot limit catalog method leaders f outcome).marks) :
    e.1 ∈ f.request.partIds := by
  have parts := upshot_parts fair limit catalog method leaders 0 0
  exact mem_named fair e.1 (parts.mem_iff.mp (List.mem_append_left _ (List.mem_map_of_mem he)))

theorem hints_nodup (limit : Nat) (catalog : Catalog) (method : String) (leaders : Leaders) :
    ((upshot limit catalog method leaders f outcome).hints.map (·.1)).Nodup := by
  cases outcome with
  | error fault => exact List.nodup_nil
  | ok reply =>
    rw [upshot_hints]
    exact (fair reply rfl).hinted_nodup

theorem hints_own {e : PartId × Option Host}
    (he : e ∈ (upshot limit catalog method leaders f outcome).hints) :
    e.1 ∈ f.request.partIds := by
  cases outcome with
  | error fault => cases he
  | ok reply =>
    rw [upshot_hints] at he
    exact (fair reply rfl).hinted_own e.1 (List.mem_map_of_mem he)

end Fair

/-- What a request asks for at a partition is what some original request asks for. -/
def Carries (requests : Table Host (Batch α)) (b : Batch α) : Prop :=
  ∀ p items, b.parts.get? p = some items →
    ∃ host r, requests.get? host = some r ∧ r.space = b.space ∧ r.parts.get? p = some items

theorem extract_carries {requests : Table Host (Batch α)} {b : Batch α}
    (h : Carries requests b) (parts : List PartId) : Carries requests (b.extract parts) := by
  intro p items hp
  rw [Batch.get?_extract] at hp
  split at hp
  · exact h p items hp
  · cases hp

/-- The account of a request: where each partition is, and with which items. -/
structure Accounted (requests : Table Host (Batch α)) (s : Scatter α δ)
    (log : List (Answered α δ)) : Prop where
  parts : (underway s.flights ++ s.failed.keys ++ acknowledged log).Perm (requested requests)
  total : s.total = (requested requests).length
  replies : s.responses = log.map Answered.reply
  under : ∀ f ∈ s.flights, Carries requests f.request
  told : ∀ a ∈ log, Carries requests a.flight.request

variable {requests : Table Host (Batch α)} {s : Scatter α δ} {log : List (Answered α δ)}

theorem sent_carries {calls : List (Host × Host × Batch α)}
    (h : ∀ c ∈ calls, Carries requests c.2.2) (ticket wave : Nat) :
    ∀ g ∈ sent ticket wave calls, Carries requests g.request := by
  intro g hg
  have := List.mem_map_of_mem (f := Flight.request) hg
  rw [sent_requests] at this
  obtain ⟨c, hc, eq⟩ := List.mem_map.mp this
  exact eq ▸ h c hc

theorem start_accounted (disjoint : Disjoint requests) (method : String) (stats : Stats) :
    Accounted requests (start method requests stats).1 ([] : List (Answered α δ)) := by
  rw [start_eq]
  constructor
  · have opened : underway (sent 0 0 (opening requests)) = requested requests := by
      rw [underway_sent, opening, List.flatMap_map, requested, Table.values, List.flatMap_map]
    have none_failed : (∅ : Table PartId Status).keys = [] := rfl
    simp only [opened, none_failed, List.append_nil, acknowledged, List.flatMap_nil]
    exact .refl _
  · exact (distinct_perm (requested_nodup disjoint)).length_eq
  · rfl
  · refine sent_carries (fun c hc p items hp => ?_) 0 0
    obtain ⟨e, he, rfl⟩ := List.mem_map.mp hc
    exact ⟨e.1, e.2, Table.get?_eq_some_iff.mpr he, rfl, hp⟩
  · simp

theorem underway_under {flights : List (Flight α)} {next : Nat} (ticketed : Ticketed flights next)
    {f : Flight α} (under : f ∈ flights) :
    (underway flights).Perm (f.request.partIds ++ underway (others f flights)) :=
  (flights_perm ticketed.unique under).flatMap_right _

/-- A partition under way is neither failed yet, nor under way twice. -/
theorem failed_of_under (disjoint : Disjoint requests) (h : Accounted requests s log)
    (ticketed : Ticketed s.flights s.dispatched) {f : Flight α} (under : f ∈ s.flights)
    {p : PartId} (hp : p ∈ f.request.partIds) : p ∉ s.failed.keys := by
  intro failed
  have here := List.count_pos_iff.mpr hp
  have there := List.count_pos_iff.mpr failed
  have total := h.parts.count_eq p
  have split := (underway_under ticketed under).count_eq p
  have once := List.nodup_iff_count.mp (requested_nodup disjoint) p
  simp only [List.count_append] at total split
  omega

/-- Of the calls under way only one asks for a partition. -/
theorem flight_unique (disjoint : Disjoint requests) (h : Accounted requests s log)
    {f g : Flight α} (hf : f ∈ s.flights) (hg : g ∈ s.flights) {p : PartId}
    (own : p ∈ f.request.partIds) (own' : p ∈ g.request.partIds) : g = f := by
  have all := h.parts.nodup_iff.mpr (requested_nodup disjoint)
  rw [List.append_assoc] at all
  have apart := (List.nodup_flatMap.mp (List.nodup_append.mp all).1).2
  have : Std.Symm (Function.onFun List.Disjoint fun f : Flight α => f.request.partIds) :=
    ⟨fun _ _ apart _ there here => apart here there⟩
  by_contra other
  exact apart.forall hg hf other own' own

/-- The partitions of a call that ends are those that failed with it, those that are sent
again and those that were not named. -/
theorem taken_count (disjoint : Disjoint requests) (h : Accounted requests s log)
    (ticketed : Ticketed s.flights s.dispatched) {f : Flight α} (under : f ∈ s.flights)
    (limit : Nat) (catalog : Catalog) (e : Estimates)
    (outcome : Except Fault (StorageReply δ))
    (fair : ∀ reply, outcome = .ok reply → Fair f reply) (p : PartId) :
    let after := (s.receive limit catalog f.ticket outcome e).1
    List.count p (underway after.flights) + List.count p after.failed.keys +
        List.count p f.request.partIds =
      List.count p (underway s.flights) + List.count p s.failed.keys +
        List.count p (named f outcome) := by
  rw [receive_under ticketed under, settle_eq]
  generalize hu : upshot limit catalog s.method e.leaders f outcome = u
  have all := upshot_parts fair limit catalog s.method e.leaders s.dispatched (f.wave + 1)
  rw [hu] at all
  have once := List.nodup_append.mp (all.nodup_iff.mpr (named_nodup fair))
  have failed := s.failed.keys_insertAll_perm once.1 fun q hq =>
    failed_of_under disjoint h ticketed under
      (mem_named fair q (all.mem_iff.mp (List.mem_append_left _ hq)))
  have all := all.count_eq p
  have failed := failed.count_eq p
  have split := (underway_under ticketed under).count_eq p
  simp only [underway, List.flatMap_append, List.count_append] at all failed split ⊢
  omega

theorem taken_carries (h : ∀ g ∈ s.flights, Carries requests g.request)
    (ticketed : Ticketed s.flights s.dispatched) {f : Flight α} (under : f ∈ s.flights)
    (limit : Nat) (catalog : Catalog) (e : Estimates) (outcome : Except Fault (StorageReply δ)) :
    ∀ g ∈ (s.receive limit catalog f.ticket outcome e).1.flights, Carries requests g.request := by
  rw [receive_under ticketed under, settle_eq]
  intro g hg
  rcases List.mem_append.mp hg with hg | hg
  · exact h g (List.mem_of_mem_filter hg)
  · refine sent_carries (fun c hc => ?_) _ _ g hg
    obtain ⟨parts, eq⟩ := upshot_extract hc
    rw [eq]
    exact extract_carries (h f under) parts

theorem failed_accounted (disjoint : Disjoint requests) (h : Accounted requests s log)
    (ticketed : Ticketed s.flights s.dispatched) {f : Flight α} (under : f ∈ s.flights)
    (limit : Nat) (catalog : Catalog) (e : Estimates) (fault : Fault) :
    Accounted requests (s.receive limit catalog f.ticket (.error fault) e).1 log := by
  have taken := taken_count disjoint h ticketed under limit catalog e (.error fault) nofun
  have carried := taken_carries h.under ticketed under limit catalog e (.error fault)
  rw [receive_under ticketed under, settle_eq] at taken carried ⊢
  refine ⟨List.perm_iff_count.mpr fun p => ?_, h.total, ?_, carried, h.told⟩
  · have total := h.parts.count_eq p
    have taken := taken p
    simp only [List.count_append, named] at total taken ⊢
    omega
  · simpa [replies] using h.replies

theorem answered_accounted (disjoint : Disjoint requests) (h : Accounted requests s log)
    (ticketed : Ticketed s.flights s.dispatched) {f : Flight α} (under : f ∈ s.flights)
    (limit : Nat) (catalog : Catalog) (e : Estimates) {reply : StorageReply δ}
    (fair : Fair f reply) :
    Accounted requests (s.receive limit catalog f.ticket (.ok reply) e).1
      (log ++ [⟨f, reply⟩]) := by
  have taken := taken_count disjoint h ticketed under limit catalog e (.ok reply)
    (by rintro _ ⟨⟩; exact fair)
  have carried := taken_carries h.under ticketed under limit catalog e (.ok reply)
  rw [receive_under ticketed under, settle_eq] at taken carried ⊢
  refine ⟨List.perm_iff_count.mpr fun p => ?_, h.total, ?_, carried, ?_⟩
  · have total := h.parts.count_eq p
    have taken := taken p
    have answer := (answer_perm fair).count_eq p
    simp only [acknowledged, List.flatMap_append, List.flatMap_singleton, List.count_append, named]
      at total taken answer ⊢
    omega
  · simp [replies, h.replies]
  · intro a ha
    rcases List.mem_append.mp ha with ha | ha
    · exact h.told a ha
    · rw [List.mem_singleton.mp ha]
      exact h.under f under

variable {limit : Nat} {method : String}

theorem course_accounted (disjoint : Disjoint requests)
    (course : Course Fair limit method requests s log) : Accounted requests s log := by
  induction course with
  | start stats => exact start_accounted disjoint method stats
  | failed course under catalog e fault ih =>
    exact failed_accounted disjoint ih (course_ticketed course) under limit catalog e fault
  | answered course under catalog e reply fair ih =>
    exact answered_accounted disjoint ih (course_ticketed course) under limit catalog e fair

/-- How many of the answers acknowledge a partition. -/
def answersFor (log : List (Answered α δ)) (p : PartId) : Nat :=
  log.countP fun a => decide (p ∈ a.acknowledged)

theorem count_acknowledged (log : List (Answered α δ)) (p : PartId) :
    List.count p (acknowledged log) = answersFor log p := by
  induction log with
  | nil => rfl
  | cons a rest ih =>
    have once : a.acknowledged.Nodup := a.flight.request.partIds_nodup.filter _
    have rest_count : List.count p (acknowledged (a :: rest)) =
        List.count p a.acknowledged + List.count p (acknowledged rest) := by
      simp [acknowledged, List.count_append]
    rw [rest_count, ih, answersFor, answersFor, List.countP_cons, once.count]
    simp [Nat.add_comm]

/-- At every point each partition asked for is under way, failed or acknowledged, and
only one of these. At the end it is failed, or acknowledged by exactly one answer. -/
theorem parts_conserved (disjoint : Disjoint requests)
    (course : Course Fair limit method requests s log) :
    (requested requests).Nodup ∧
    (underway s.flights ++ s.failed.keys ++ acknowledged log).Perm (requested requests) ∧
    s.responses = log.map Answered.reply ∧
    (∀ a ∈ log, ∀ p ∈ a.acknowledged, ∃ host r items, requests.get? host = some r ∧
      r.space = a.flight.request.space ∧ r.parts.get? p = some items ∧
      a.flight.request.parts.get? p = some items) ∧
    (s.finished = true →
      (∀ p ∈ requested requests,
        s.failed.contains p = true ∧ answersFor log p = 0 ∨
        s.failed.contains p = false ∧ answersFor log p = 1) ∧
      (s.succeeded = true ↔ ∀ p ∈ requested requests, p ∈ acknowledged log) ∧
      s.completeness =
        if requested requests = [] then 100
        else (acknowledged log).length * 100 / (requested requests).length) := by
  have account := course_accounted disjoint course
  have nodup := requested_nodup disjoint
  refine ⟨nodup, account.parts, account.replies, ?_, fun finished => ?_⟩
  · intro a ha p hp
    obtain ⟨items, carried⟩ := Table.get?_of_mem_keys (List.mem_of_mem_filter hp)
    obtain ⟨host, r, hr, space, own⟩ := account.told a ha p items carried
    exact ⟨host, r, items, hr, space, own, carried⟩
  have landed : (s.failed.keys ++ acknowledged log).Perm (requested requests) := by
    have none : s.flights = [] := List.isEmpty_iff.mp finished
    simpa [underway, none] using account.parts
  refine ⟨?_, ?_, ?_⟩
  · intro p hp
    have one := landed.count_eq p
    rw [List.count_append, count_acknowledged, nodup.count, if_pos hp, s.failed.keys_nodup.count]
      at one
    rw [Table.contains]
    by_cases failed : p ∈ s.failed.keys
    · rw [if_pos failed] at one
      exact .inl ⟨Table.mem_keys.mp failed, by omega⟩
    · rw [if_neg failed] at one
      exact .inr ⟨by simpa using mt Table.mem_keys.mpr failed, by omega⟩
  · constructor
    · intro succeeded p hp
      have none : s.failed.keys = [] := by
        simp [Table.keys, List.isEmpty_iff.mp succeeded]
      rw [none] at landed
      exact landed.mem_iff.mpr hp
    · intro all
      have none : s.failed.keys = [] := by
        refine List.eq_nil_iff_forall_not_mem.mpr fun p hp => ?_
        have asked := landed.mem_iff.mp (List.mem_append_left _ hp)
        have apart := (List.nodup_append.mp (landed.nodup_iff.mpr nodup)).2.2
        exact apart p hp p (all p asked) rfl
      exact List.isEmpty_iff.mpr (List.map_eq_nil_iff.mp none)
  · have sizes := landed.length_eq
    have size : s.failed.keys.length = s.failed.size := by simp [Table.keys, Table.size]
    rw [List.length_append, size] at sizes
    simp only [completeness, account.total, ← List.length_eq_zero_iff]
    split
    · rfl
    · congr 2
      omega

namespace Sample

def near : Host := ⟨"a", 1⟩
def far : Host := ⟨"a", 2⟩

def asked : Table Host (Batch Nat) :=
  ⟨[(near, ⟨7, .ofList [(1, [10, 11]), (2, [20])]⟩), (far, ⟨7, .ofList [(3, [30])]⟩)],
    by decide +kernel⟩

def catalog : Catalog :=
  .ofList [.build 7 ⟨⟨"nba", 3, 1, .int64, 8⟩,
    .ofList [(1, [near, far]), (2, [near]), (3, [far])], [], [], [], []⟩]

def estimates : Estimates := ⟨∅, ⟨[near], near, near⟩, .zero⟩

def opened : Scatter Nat Unit := (start "getProps" asked .zero).1

/-- The first host acknowledges one partition, and says that the other one has moved. -/
def moved : Scatter Nat Unit :=
  (opened.receive 3 catalog 0 (.ok ⟨[⟨1, .leaderChanged, some far⟩], 5, ()⟩) estimates).1

def lost : Scatter Nat Unit :=
  (moved.receive 3 catalog 1 (.error (.rpcFailed (.reported "down"))) estimates).1

def ended : Scatter Nat Unit := (lost.receive 3 catalog 2 (.ok ⟨[], 5, ()⟩) estimates).1

end Sample

theorem parts_conserved_in_sample : Disjoint Sample.asked ∧
    ∃ log, Course Fair 3 "getProps" Sample.asked Sample.ended log ∧
      Sample.ended.finished = true ∧ answersFor log 1 = 1 ∧ answersFor log 3 = 0 ∧
      Sample.ended.completeness = 66 := by
  -- the definition itself ranges over every partition number, which is too much to decide
  have disjoint : Disjoint Sample.asked := disjoint_of_nodup (by decide +kernel)
  have opened : Course Fair 3 "getProps" Sample.asked Sample.opened [] := .start .zero
  have moved := opened.answered (f := ⟨0, Sample.near, Sample.near, 0, _⟩) (.head _)
    Sample.catalog Sample.estimates ⟨[⟨1, .leaderChanged, some Sample.far⟩], 5, ()⟩
    ⟨by decide +kernel, by decide +kernel⟩
  obtain ⟨f, hf, ticket⟩ := List.mem_map.mp
    (show 1 ∈ Sample.moved.flights.map Flight.ticket by decide +kernel)
  have lost := moved.failed hf Sample.catalog Sample.estimates (.rpcFailed (.reported "down"))
  rw [ticket] at lost
  obtain ⟨g, hg, ticket⟩ := List.mem_map.mp
    (show 2 ∈ Sample.lost.flights.map Flight.ticket by decide +kernel)
  have ended := lost.answered hg Sample.catalog Sample.estimates ⟨[], 5, ()⟩
    ⟨by simp, by simp⟩
  rw [ticket] at ended
  have finished : Sample.ended.finished = true := by decide +kernel
  have outcome := ((parts_conserved disjoint ended).2.2.2.2 finished).1
  refine ⟨disjoint, _, ended, finished, ?_, ?_, by decide +kernel⟩
  · exact ((outcome 1 (by decide +kernel)).resolve_left fun h =>
      absurd h.1 (by decide +kernel)).2
  · exact ((outcome 3 (by decide +kernel)).resolve_right fun h =>
      absurd h.1 (by decide +kernel)).2

end Scatter

end ClusterClient
