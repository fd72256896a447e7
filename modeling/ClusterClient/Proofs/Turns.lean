import ClusterClient.Proofs.Conservation
import ClusterClient.Proofs.Guidance
import ClusterClient.Proofs.Ledger
/-!
The way of a partition that is sent alone to hosts that answer for each partition on its own,
and what an answer for many partitions means for one of them.
-/
namespace ClusterClient.Scatter

variable {α δ : Type}

/-- Hosts that answer for each partition on its own. A partition that is not done has a
status, and something may be said about its leader. -/
structure Service where
  down : Host → Bool
  verdict : Host → PartId → Nat → Option (Status × Option Host)

/-- What a call to a host means for one of its partitions. -/
inductive Turn
  | ends (fate : Option Status) (hint : Option (Option Host))
  | onward (hint : Option Host)

def Turn.fate : Turn → Option Status
  | ends fate _ => fate
  | onward _ => none

def Turn.hint : Turn → Option (Option Host)
  | ends _ hint => hint
  | onward hint => some hint

/-- Where a partition has been, what it failed with if it did, and what was last said about
its leader if anything was. -/
structure Walk where
  hosts : List Host
  fate : Option Status
  hint : Option (Option Host)
deriving DecidableEq

/-- The leader that was named if it holds the partition, and the first host that does if not. -/
def successor (replicas : List Host) (here : Host) : Option Host → Host
  | some leader => if leader ∈ replicas then leader else replicas.headD here
  | none => replicas.headD here

namespace Service

variable (v : Service)

def entry (host : Host) (wave : Nat) (p : PartId) : Option PartFailure :=
  (v.verdict host p wave).map fun x => ⟨p, x.1, x.2⟩

/-- A host that is down gives no answer. The others name the partitions that are not done,
in some order. -/
def Answers (f : Flight α) : Except Fault (StorageReply δ) → Prop
  | .error _ => v.down f.host = true
  | .ok reply => v.down f.host = false ∧
    reply.failed.Perm (f.request.partIds.filterMap (v.entry f.host f.wave))

def turn (last : Bool) (p : PartId) (host : Host) (wave : Nat) : Turn :=
  if v.down host then .ends (some .rpcFailure) none
  else match v.verdict host p wave with
    | none => .ends none none
    | some (status, leader) =>
      if status = .leaderChanged then
        if last then .ends (some .leaderChanged) (some leader) else .onward leader
      else .ends (some status) none

variable {v}

theorem not_last_of_onward {last : Bool} {p : PartId} {host : Host} {wave : Nat}
    {hint : Option Host} (h : v.turn last p host wave = .onward hint) : last = false := by
  unfold turn at h
  split at h
  · cases h
  · split at h
    · cases h
    · split at h
      · split at h
        · cases h
        · rename_i still
          exact Bool.eq_false_iff.mpr still
      · cases h

variable (v)

/-- The way of a partition that is sent alone, from a host on. -/
def walk (limit : Nat) (replicas : List Host) (p : PartId) (host : Host) (wave : Nat) : Walk :=
  match turned : v.turn (decide (limit ≤ wave + 1)) p host wave with
  | .ends fate hint => ⟨[host], fate, hint⟩
  | .onward hint =>
    let rest := walk limit replicas p (successor replicas host hint) (wave + 1)
    ⟨host :: rest.hosts, rest.fate, rest.hint.or (some hint)⟩
termination_by limit - wave
decreasing_by
  have := of_decide_eq_false (not_last_of_onward turned)
  omega

variable {v}

theorem walk_ends {limit : Nat} {p : PartId} {host : Host} {wave : Nat} {fate : Option Status}
    {hint : Option (Option Host)}
    (turned : v.turn (decide (limit ≤ wave + 1)) p host wave = .ends fate hint)
    (replicas : List Host) : v.walk limit replicas p host wave = ⟨[host], fate, hint⟩ := by
  unfold walk
  split
  · rename_i turned'
    cases turned.symm.trans turned'
    rfl
  · rename_i turned'
    cases turned.symm.trans turned'

theorem walk_onward {limit : Nat} {p : PartId} {host : Host} {wave : Nat} {hint : Option Host}
    (turned : v.turn (decide (limit ≤ wave + 1)) p host wave = .onward hint)
    (replicas : List Host) : v.walk limit replicas p host wave =
      let rest := v.walk limit replicas p (successor replicas host hint) (wave + 1)
      ⟨host :: rest.hosts, rest.fate, rest.hint.or (some hint)⟩ := by
  rw [walk]
  split
  · rename_i turned'
    cases turned.symm.trans turned'
  · rename_i turned'
    cases turned.symm.trans turned'
    rfl

variable {f : Flight α} {reply : StorageReply δ} {outcome : Except Fault (StorageReply δ)}

theorem mem_failed (told : v.Answers f (.ok reply)) {x : PartFailure} :
    x ∈ reply.failed ↔ x.part ∈ f.request.partIds ∧
      v.verdict f.host x.part f.wave = some (x.status, x.leader) := by
  rw [told.2.mem_iff, List.mem_filterMap]
  simp only [entry, Option.map_eq_some_iff]
  constructor
  · rintro ⟨p, own, verdict, given, rfl⟩
    exact ⟨own, given⟩
  · rintro ⟨own, given⟩
    exact ⟨x.part, own, _, given, rfl⟩

theorem fair (told : v.Answers f (.ok reply)) : Fair f reply := by
  refine ⟨fun x hx => ((mem_failed told).mp hx).1, List.Nodup.map_on ?_ ?_⟩
  · intro x hx y hy same
    have given := ((mem_failed told).mp hx).2
    rw [same, ((mem_failed told).mp hy).2] at given
    cases x
    cases y
    simp_all
  · refine told.2.nodup_iff.mpr (f.request.partIds_nodup.filterMap fun p q x hp hq => ?_)
    obtain ⟨_, _, rfl⟩ := Option.map_eq_some_iff.mp hp
    obtain ⟨_, _, eq⟩ := Option.map_eq_some_iff.mp hq
    exact (congrArg PartFailure.part eq).symm

theorem fair_of_answers (told : v.Answers f outcome) :
    ∀ reply, outcome = .ok reply → Fair f reply := by
  rintro reply rfl
  exact fair told

/-- The entries of an answer that a property of entries selects, seen through one partition. -/
theorem lookup_selected {β : Type} (told : v.Answers f (.ok reply)) {p : PartId}
    (own : p ∈ f.request.partIds) (q : PartFailure → Bool) (g : PartFailure → β) :
    ((reply.failed.filter q).map fun x => (x.part, g x)).lookup p =
      ((v.entry f.host f.wave p).filter q).map g := by
  have keys : (((reply.failed.filter q).map fun x => (x.part, g x)).map (·.1)).Nodup := by
    rw [List.map_map]
    exact (fair told).once.sublist (List.filter_sublist.map _)
  cases selected : (v.entry f.host f.wave p).filter q with
  | none =>
    refine Table.lookup_eq_none fun here => ?_
    rw [List.map_map] at here
    obtain ⟨x, hx, rfl⟩ := List.mem_map.mp here
    obtain ⟨listed, chosen⟩ := List.mem_filter.mp hx
    have given := ((mem_failed told).mp listed).2
    simp only [Function.comp_apply, entry, given] at selected
    simp [Option.filter, chosen] at selected
  | some x =>
    obtain ⟨entry, chosen⟩ := Option.filter_eq_some_iff.mp selected
    obtain ⟨_, given, rfl⟩ := Option.map_eq_some_iff.mp entry
    refine Table.lookup_of_mem keys (List.mem_map.mpr ⟨_, List.mem_filter.mpr ⟨?_, chosen⟩, rfl⟩)
    exact (mem_failed told).mpr ⟨own, given⟩

/-- What a call that was told means for a partition is what the turn of the partition is. -/
theorem lookup_hints (told : v.Answers f outcome) (limit : Nat) (catalog : Catalog)
    (method : String) (leaders : Leaders) {p : PartId} (own : p ∈ f.request.partIds) :
    (upshot limit catalog method leaders f outcome).hints.lookup p =
      (v.turn (decide (limit ≤ f.wave + 1)) p f.host f.wave).hint := by
  cases outcome with
  | error fault =>
    have down : v.down f.host = true := told
    simp [upshot, turn, down, Turn.hint]
  | ok reply =>
    rw [upshot_hints, hinted, lookup_selected told own, entry, turn, told.1,
      if_neg Bool.false_ne_true]
    cases v.verdict f.host p f.wave with
    | none => rfl
    | some x =>
      by_cases changed : x.1 = .leaderChanged
      · cases decide (limit ≤ f.wave + 1) <;> simp [changed, Turn.hint, Option.filter]
      · simp [changed, Turn.hint, Option.filter]

theorem mem_moving (told : v.Answers f (.ok reply)) {last : Bool} {p : PartId}
    (own : p ∈ f.request.partIds) :
    p ∈ moving last reply.failed ↔ ∃ hint, v.turn last p f.host f.wave = .onward hint := by
  rw [turn, told.1, if_neg Bool.false_ne_true]
  constructor
  · intro moves
    obtain ⟨x, hx, rfl⟩ := List.mem_map.mp moves
    obtain ⟨listed, moves⟩ := List.mem_filter.mp hx
    obtain ⟨changed, more⟩ := Bool.and_eq_true_iff.mp moves
    rw [((mem_failed told).mp listed).2]
    exact ⟨x.leader, by simp_all⟩
  · rintro ⟨hint, onward⟩
    split at onward
    · cases onward
    · rename_i status leader given
      refine List.mem_map.mpr ⟨⟨p, status, leader⟩, List.mem_filter.mpr ⟨?_, ?_⟩, rfl⟩
      · exact (mem_failed told).mpr ⟨own, given⟩
      · split at onward
        · rename_i changed
          cases last with
          | true => cases onward
          | false => simp [PartFailure.moves, changed]
        · cases onward

end Service

section Placed

variable {spaces : List Space} {space : Space} {f : Flight α}
  (found : (Catalog.ofList spaces).space f.request.space = .ok space)
  (placed : ∀ p ∈ f.request.partIds, space.parts.getD p [] ≠ [])

theorem target_placed {p : PartId} (some_host : space.parts.getD p [] ≠ []) (l : Leaders)
    (here : Host) : Router.target l space p =
      .ok (successor (space.parts.getD p []) here (l.get? (space.id, p))) := by
  rw [Router.target_eq]
  rw [Table.getD] at some_host ⊢
  cases there : space.parts.get? p with
  | none => simp [there] at some_host
  | some hosts =>
    rw [there, Option.getD_some] at some_host
    obtain ⟨first, rest, rfl⟩ := List.exists_cons_of_ne_nil some_host
    simp only [Leaders.resolve, Leaders.target?, Option.getD_some]
    cases l.get? (space.id, p) with
    | none => rfl
    | some leader =>
      by_cases holds : leader ∈ first :: rest <;> simp [successor, holds]

include found placed

theorem clusterParts_placed {parts : List PartId} (own : ∀ p ∈ parts, p ∈ f.request.partIds)
    (l : Leaders) :
    ∃ targets, Router.clusterParts (.ofList spaces) l f.request.space parts = .ok targets := by
  refine Router.clusterParts_ok found fun p hp => ⟨_, target_placed (placed p (own p hp)) l f.host⟩

variable {v : Service} {outcome : Except Fault (StorageReply δ)} (told : v.Answers f outcome)

include told

theorem lookup_marks (limit : Nat) (method : String) (leaders : Leaders) {p : PartId}
    (own : p ∈ f.request.partIds) :
    (upshot limit (.ofList spaces) method leaders f outcome).marks.lookup p =
      (v.turn (decide (limit ≤ f.wave + 1)) p f.host f.wave).fate := by
  cases outcome with
  | error fault =>
    have down : v.down f.host = true := told
    have here : (p, Status.rpcFailure) ∈ f.request.partIds.map fun p => (p, .rpcFailure) :=
      List.mem_map_of_mem own
    have keys : ((f.request.partIds.map fun p => (p, Status.rpcFailure)).map (·.1)).Nodup := by
      simpa [Function.comp_def] using f.request.partIds_nodup
    rw [upshot, Table.lookup_of_mem keys here, Service.turn, if_pos down, Turn.fate]
  | ok reply =>
    obtain ⟨targets, routed⟩ := clusterParts_placed found placed
      ((Service.fair told).moving_own (decide (limit ≤ f.wave + 1)))
      (follows f.request.space leaders (hinted reply.failed))
    simp only [upshot, routed]
    rw [marked, Service.lookup_selected told own, Service.entry, Service.turn, told.1,
      if_neg Bool.false_ne_true]
    cases v.verdict f.host p f.wave with
    | none => rfl
    | some x =>
      by_cases changed : x.1 = .leaderChanged
      · cases decide (limit ≤ f.wave + 1) <;>
          simp [changed, Turn.fate, Option.filter, PartFailure.moves]
      · simp [changed, Turn.fate, Option.filter, PartFailure.moves]

omit found placed in
theorem asking_ends (limit : Nat) (catalog : Catalog) (method : String) (leaders : Leaders)
    {p : PartId} (own : p ∈ f.request.partIds) (fate : Option Status)
    (hint : Option (Option Host))
    (turned : v.turn (decide (limit ≤ f.wave + 1)) p f.host f.wave = .ends fate hint) :
    asking p (upshot limit catalog method leaders f outcome).calls = [] := by
  cases outcome with
  | error fault => rfl
  | ok reply =>
    refine asking_of_not_moving limit catalog method leaders f fun moves => ?_
    obtain ⟨h, onward⟩ := (Service.mem_moving told own).mp moves
    rw [turned] at onward
    cases onward

theorem asking_onward (limit : Nat) (method : String) (leaders : Leaders) {p : PartId}
    (own : p ∈ f.request.partIds) (hint : Option Host)
    (turned : v.turn (decide (limit ≤ f.wave + 1)) p f.host f.wave = .onward hint) :
    ∃ parts, asking p (upshot limit (.ofList spaces) method leaders f outcome).calls =
      [(f.origin, successor (space.parts.getD p []) f.host hint, f.request.extract parts)] := by
  cases outcome with
  | error fault =>
    have down : v.down f.host = true := told
    rw [Service.turn, if_pos down] at turned
    cases turned
  | ok reply =>
    have fair := Service.fair told
    have moves := (Service.mem_moving told own).mpr ⟨hint, turned⟩
    obtain ⟨targets, routed⟩ := clusterParts_placed found placed
      (fair.moving_own (decide (limit ≤ f.wave + 1)))
      (follows f.request.space leaders (hinted reply.failed))
    obtain ⟨space', host, parts, found', target, single⟩ := asking_rerouted routed moves own
    cases found.symm.trans found'
    refine ⟨parts, ?_⟩
    have told_hint := Service.lookup_hints told limit (.ofList spaces) method leaders own
    rw [turned, upshot_hints] at told_hint
    rw [target_placed (placed p own) _ f.host, Catalog.id_of_space found,
      get?_follows fair.hinted_nodup, told_hint] at target
    cases target
    simp only [upshot, routed]
    exact single

end Placed

end ClusterClient.Scatter
