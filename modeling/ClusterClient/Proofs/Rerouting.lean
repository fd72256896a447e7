import ClusterClient.Proofs.Conservation
import ClusterClient.Proofs.Grouping
import ClusterClient.Proofs.Ledger
/-!
The partitions of one answer that moved are sent again together or not at all. If there is a
host for each of them, each goes to its own; if there is none for one of them, all have failed.
-/
namespace ClusterClient

namespace Router

/-- There is a host to send the partition to. -/
def Routable (catalog : Catalog) (id : SpaceId) (p : PartId) : Prop :=
  ∃ space, catalog.space id = .ok space ∧ space.parts.getD p [] ≠ []

/-- What partitions are marked with if one of them cannot be sent anywhere. -/
def blame (catalog : Catalog) (id : SpaceId) : Status :=
  match catalog.space id with
  | .ok _ => .partNotFound
  | .error _ => .spaceNotFound

variable {leaders : Leaders} {spaces : List Space} {id : SpaceId} {parts : List PartId}

theorem status_of_groupInto {space : Space} {groups : HostParts} {fault : Fault}
    (failed : groupInto leaders space groups parts = .error fault) :
    fault.status = .partNotFound := by
  induction parts generalizing groups with
  | nil => cases failed
  | cons p rest ih =>
    rw [groupInto] at failed
    rcases target_cases leaders space p with ⟨host, here, _⟩ | ⟨here, _⟩
    · rw [here] at failed
      exact ih failed
    · rw [here] at failed
      cases failed
      rfl

theorem status_of_clusterParts {catalog : Catalog} {fault : Fault}
    (failed : clusterParts catalog leaders id parts = .error fault) :
    fault.status = blame catalog id := by
  unfold clusterParts Catalog.space at failed
  unfold blame Catalog.space
  cases found : catalog.spaces.get? id with
  | none =>
    rw [found] at failed
    cases failed
    rfl
  | some space =>
    rw [found] at failed
    change (groupInto leaders space ∅ parts >>= _) = _ at failed
    cases grouped : groupInto leaders space ∅ parts with
    | ok groups =>
      rw [grouped] at failed
      cases failed
    | error own =>
      rw [grouped] at failed
      cases failed
      exact status_of_groupInto grouped

/-- Grouping fails as a whole: one partition without a host is enough. -/
theorem clusterParts_ok_iff (catalog : Catalog) (leaders : Leaders) (id : SpaceId)
    (some : parts ≠ []) :
    (∃ targets, clusterParts catalog leaders id parts = .ok targets) ↔
      ∀ p ∈ parts, Routable catalog id p := by
  constructor
  · rintro ⟨targets, routed⟩ p hp
    obtain ⟨space, found, targeted, _⟩ := mem_clusterParts routed
    exact ⟨space, found, exists_target_iff.mp (targeted p hp)⟩
  · intro all
    obtain ⟨first, listed⟩ := List.exists_mem_of_ne_nil parts some
    obtain ⟨space, found, _⟩ := all first listed
    refine clusterParts_ok found fun p hp => ?_
    obtain ⟨space', found', held⟩ := all p hp
    cases found.symm.trans found'
    exact exists_target_iff.mpr held

end Router

namespace Scatter

variable {α δ : Type}

/-- The answer says that the leader of the partition has changed. -/
def Moved (reply : StorageReply δ) (p : PartId) : Prop :=
  ∃ x ∈ reply.failed, x.part = p ∧ x.status = .leaderChanged

/-- Of these calls just one asks for the partition. It is the next wave of the call that has
ended, goes to the home of the partition and asks for the same items. -/
def SentAgain (spaces : List Space) (leaders : Leaders) (f : Flight α) (p : PartId)
    (calls : List (Flight α)) : Prop :=
  ∃ g space, calls.filter (fun g => decide (p ∈ g.request.partIds)) = [g] ∧
    (Catalog.ofList spaces).space f.request.space = .ok space ∧
    Router.Home leaders f.request.space space p g.host ∧
    g.origin = f.origin ∧ g.wave = f.wave + 1 ∧ g.request.space = f.request.space ∧
    g.request.parts.get? p = f.request.parts.get? p

theorem mem_moving_iff {reply : StorageReply δ} {p : PartId} :
    p ∈ moving false reply.failed ↔ Moved reply p := by
  unfold moving Moved
  constructor
  · intro listed
    obtain ⟨x, hx, rfl⟩ := List.mem_map.mp listed
    obtain ⟨here, moves⟩ := List.mem_filter.mp hx
    exact ⟨x, here, rfl, by simpa [PartFailure.moves] using moves⟩
  · rintro ⟨x, here, rfl, changed⟩
    exact List.mem_map_of_mem (List.mem_filter.mpr ⟨here, by simp [PartFailure.moves, changed]⟩)

/-- The calls of one wave that ask for a partition. -/
theorem filter_sent (ticket wave : Nat) {calls : List (Host × Host × Batch α)} {p : PartId}
    {c : Host × Host × Batch α} (single : asking p calls = [c]) :
    ∃ g, (sent ticket wave calls).filter (fun g => decide (p ∈ g.request.partIds)) = [g] ∧
      g.call = c ∧ g.wave = wave := by
  have same : ((sent ticket wave calls).filter
      (fun g => decide (p ∈ g.request.partIds))).map Flight.call = [c] := by
    have all := sent_calls ticket wave calls
    rw [← single, asking]
    conv_rhs => rw [← all, List.filter_map]
    rfl
  obtain ⟨g, one, call⟩ := List.map_eq_singleton_iff.mp same
  have here : g ∈ sent ticket wave calls :=
    List.mem_of_mem_filter (one ▸ List.mem_singleton_self g)
  exact ⟨g, one, call, wave_of_sent here⟩

theorem sentAgain_of_routed {spaces : List Space} {leaders : Leaders} {f : Flight α}
    {parts : List PartId} {targets : Router.HostParts}
    (routed : Router.clusterParts (.ofList spaces) leaders f.request.space parts = .ok targets)
    {p : PartId} (hp : p ∈ parts) (own : p ∈ f.request.partIds) (ticket : Nat) :
    SentAgain spaces leaders f p (sent ticket (f.wave + 1) (rerouted f targets)) := by
  obtain ⟨space, host, ps, found, target, single⟩ := asking_rerouted routed hp own
  obtain ⟨g, one, call, wave⟩ := filter_sent ticket (f.wave + 1) single
  have home := Router.target_eq_ok_iff.mp target
  rw [Catalog.id_of_space found] at home
  -- what the call asks for is told from the request alone
  have asked : p ∈ g.request.partIds := by
    have here : g ∈ [g] := List.mem_singleton_self g
    rw [← one] at here
    simpa using (List.mem_filter.mp here).2
  obtain ⟨origin, host', request⟩ : g.origin = f.origin ∧ g.host = host ∧
      g.request = f.request.extract ps := by
    simpa [Flight.call] using call
  rw [request, Batch.mem_partIds_extract] at asked
  refine ⟨g, space, one, found, host' ▸ home, origin, wave, by rw [request]; rfl, ?_⟩
  rw [request, Batch.get?_extract, if_pos asked.1]

variable {limit : Nat} {s : Scatter α δ} {f : Flight α}

/-- With a wave left an answer leads to calls for all that moved, or to a fault of them all. -/
theorem upshot_waves (method : String) (left : f.wave + 1 < limit) (catalog : Catalog)
    (leaders : Leaders) (reply : StorageReply δ) :
    let moved := moving false reply.failed
    let routed := Router.clusterParts catalog
      (follows f.request.space leaders (hinted reply.failed)) f.request.space moved
    let u := upshot limit catalog method leaders f (.ok reply)
    (∃ targets, routed = .ok targets ∧ u.marks = marked false reply.failed ∧
      u.calls = rerouted f targets) ∨
    ∃ fault, routed = .error fault ∧ u.calls = [] ∧
      u.marks = marked false reply.failed ++ moved.map fun p => (p, fault.status) := by
  have waves : decide (limit ≤ f.wave + 1) = false := decide_eq_false (Nat.not_le.mpr left)
  simp only [upshot, waves]
  split
  · rename_i targets routed
    exact .inl ⟨targets, routed, rfl, rfl⟩
  · rename_i fault routed
    exact .inr ⟨fault, routed, rfl, rfl⟩

theorem made_of_receive (ticketed : Ticketed s.flights s.dispatched) (under : f ∈ s.flights)
    (catalog : Catalog) (e : Estimates) (outcome : Except Fault (StorageReply δ)) :
    ((s.receive limit catalog f.ticket outcome e).1.flights.filter
      fun g => decide (s.dispatched ≤ g.ticket)) =
      sent s.dispatched (f.wave + 1)
        (upshot limit catalog s.method e.leaders f outcome).calls := by
  rw [receive_under ticketed under, settle_eq, List.filter_append]
  have old : (others f s.flights).filter (fun g => decide (s.dispatched ≤ g.ticket)) = [] := by
    refine List.filter_eq_nil_iff.mpr fun g hg => ?_
    have below := (others_ticketed ticketed f).below g hg
    simpa using below
  rw [old, List.nil_append]
  exact List.filter_eq_self.mpr fun g hg => decide_eq_true (ticket_of_sent hg)

variable {method : String} {requests : Table Host (Batch α)} {log : List (Answered α δ)}

/-- What an answer with a wave left does with the partitions that it says have moved. If there
is a host for each of them, they are marked with what the answer says and nothing else, and
each that was asked for is sent again. If there is none for one of them, no call is made, and
they all have failed for that reason, those with a host too. -/
theorem moved_together (h : Course (fun _ _ => True) limit method requests s log)
    (under : f ∈ s.flights) (left : f.wave + 1 < limit) (spaces : List Space) (e : Estimates)
    (reply : StorageReply δ) :
    let id := f.request.space
    let catalog := Catalog.ofList spaces
    let after := s.receive limit catalog f.ticket (.ok reply) e
    let made := after.1.flights.filter fun g => decide (s.dispatched ≤ g.ticket)
    ∀ p, Moved reply p →
      ((∀ q, Moved reply q → Router.Routable catalog id q) →
        after.1.failed.get? p = (s.failed.insertAll (marked false reply.failed)).get? p ∧
        (p ∈ f.request.partIds → SentAgain spaces after.2.leaders f p made)) ∧
      ((∃ q, Moved reply q ∧ ¬ Router.Routable catalog id q) →
        after.1.failed.get? p = some (Router.blame catalog id) ∧ made = []) := by
  intro id catalog after made p moved
  have ticketed := course_ticketed h
  have calls : made = _ := made_of_receive ticketed under catalog e (.ok reply)
  have taken : after = _ := (receive_under ticketed under limit catalog (.ok reply) e).trans
    (settle_eq limit catalog f _ e (.ok reply))
  have listed : p ∈ moving false reply.failed := mem_moving_iff.mpr moved
  have routable := Router.clusterParts_ok_iff catalog
    (follows id e.leaders (hinted reply.failed)) id (List.ne_nil_of_mem listed)
  rw [calls, taken]
  simp only [upshot_hints]
  rcases upshot_waves s.method left catalog e.leaders reply with
    ⟨targets, routed, marks, all⟩ | ⟨fault, routed, none, marks⟩
  · rw [marks, all]
    constructor
    · exact fun _ => ⟨rfl, fun own => sentAgain_of_routed routed listed own _⟩
    · rintro ⟨q, hq, stuck⟩
      exact absurd (routable.mp ⟨targets, routed⟩ q (mem_moving_iff.mpr hq)) stuck
  · rw [marks, none]
    constructor
    · intro all
      obtain ⟨targets, routed'⟩ := routable.mpr fun q hq => all q (mem_moving_iff.mp hq)
      cases routed.symm.trans routed'
    · rintro -
      rw [Table.insertAll_append, Table.get?_insertAll_const, if_pos listed,
        Router.status_of_clusterParts routed]
      exact ⟨rfl, rfl⟩

namespace Sample

/-- One space with these partitions. -/
def held (parts : List (PartId × List Host)) : List Space :=
  [.build 7 ⟨⟨"nba", 3, 1, .int64, 8⟩, .ofList parts, [], [], [], []⟩]

/-- Both partitions of the first call have moved, and nobody knows where. -/
def both : StorageReply Unit := ⟨[⟨1, .leaderChanged, none⟩, ⟨2, .leaderChanged, none⟩], 5, ()⟩

/-- The answer comes when these partitions are held. -/
def regrouped (parts : List (PartId × List Host)) : Scatter Nat Unit :=
  (opened.receive 3 (.ofList (held parts)) 0 (.ok both) estimates).1

end Sample

theorem moved_together_in_sample :
    (Sample.regrouped [(1, [Sample.far]), (2, [Sample.near])]).failed.get? 2 = none ∧
      (Sample.regrouped [(2, [Sample.near])]).failed.get? 2 = some .partNotFound := by
  have opened : Course (fun _ _ => True) 3 "getProps" Sample.asked Sample.opened [] := .start .zero
  have outcome := fun parts => moved_together opened (f := ⟨0, Sample.near, Sample.near, 0, _⟩)
    (.head _) (by decide) (Sample.held parts) Sample.estimates Sample.both 2
    ⟨_, .tail _ (.head _), rfl, rfl⟩
  constructor
  · refine ((outcome [(1, [Sample.far]), (2, [Sample.near])]).1 ?_).1
    rintro q ⟨x, here, rfl, _⟩
    rcases List.mem_cons.mp here with rfl | here
    · exact ⟨_, rfl, by decide +kernel⟩
    · obtain rfl := List.mem_singleton.mp here
      exact ⟨_, rfl, by decide +kernel⟩
  · refine ((outcome [(2, [Sample.near])]).2 ⟨1, ⟨_, .head _, rfl, rfl⟩, ?_⟩).1
    rintro ⟨space, found, held⟩
    cases found
    exact held (by decide +kernel)

/-- A partition that moved has a host, a wave is left for it, and still it has failed and is
asked for by no call: the one that moved with it is gone. -/
theorem routable_part_fails :
    (⟨2, .leaderChanged, none⟩ : PartFailure) ∈ Sample.both.failed ∧
      Router.Routable (.ofList (Sample.held [(2, [Sample.near])])) 7 2 ∧
      (∃ f ∈ Sample.opened.flights, f.ticket = 0 ∧ f.wave + 1 < 3 ∧ 2 ∈ f.request.partIds) ∧
      (Sample.regrouped [(2, [Sample.near])]).failed.get? 2 = some .partNotFound ∧
      ∀ g ∈ (Sample.regrouped [(2, [Sample.near])]).flights, 2 ∉ g.request.partIds := by
  refine ⟨by decide, ⟨_, rfl, by decide +kernel⟩, ?_, by decide +kernel, by decide +kernel⟩
  exact ⟨_, .head _, rfl, by decide, by decide +kernel⟩

end Scatter

end ClusterClient
