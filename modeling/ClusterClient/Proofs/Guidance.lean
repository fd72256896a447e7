import ClusterClient.Proofs.Course
import ClusterClient.Table.Lemmas
/-!
Where the partitions of an answer go next. For each of them that is sent again the answer
says what to believe about its leader, so nothing that was believed before counts.
-/
namespace ClusterClient

theorem Catalog.id_of_space {spaces : List Space} {id : SpaceId} {space : Space}
    (found : (Catalog.ofList spaces).space id = .ok space) : space.id = id := by
  unfold Catalog.space at found
  split at found
  · rename_i s here
    cases found
    obtain ⟨s, _, eq⟩ := List.mem_map.mp (Table.mem_of_get?_ofList here)
    cases eq
    rfl
  · cases found

@[simp] theorem Leaders.get?_follow (l : Leaders) (space : SpaceId) (p : PartId)
    (hint : Option Host) (k : SpaceId × PartId) :
    (Leaders.follow l space p hint).get? k = if k = (space, p) then hint else l.get? k := by
  cases hint with
  | some leader => exact Table.get?_insert ..
  | none => exact Table.get?_erase ..

namespace Router

theorem target_eq (l : Leaders) (space : Space) (p : PartId) :
    target l space p = match space.parts.get? p with
      | some hosts => Leaders.resolve l ⟨space.id, p, hosts⟩
      | none => .error (.missing (.part space.id p)) := by
  rw [target, Space.partHosts]
  cases space.parts.get? p <;> rfl

theorem target_congr {l l' : Leaders} {space : Space} {p : PartId}
    (same : l.get? (space.id, p) = l'.get? (space.id, p)) :
    target l space p = target l' space p := by
  rw [target_eq, target_eq]
  cases space.parts.get? p with
  | none => rfl
  | some hosts => simp only [Leaders.resolve, Leaders.target?, same]

theorem groupInto_congr {l l' : Leaders} {space : Space} {parts : List PartId}
    (same : ∀ p ∈ parts, l.get? (space.id, p) = l'.get? (space.id, p)) (groups : HostParts) :
    groupInto l space groups parts = groupInto l' space groups parts := by
  induction parts generalizing groups with
  | nil => rfl
  | cons p rest ih =>
    have later := ih fun q hq => same q (List.mem_cons_of_mem _ hq)
    simp only [groupInto, target_congr (same p List.mem_cons_self), later]

theorem clusterParts_congr {spaces : List Space} {id : SpaceId} {l l' : Leaders}
    {parts : List PartId} (same : ∀ p ∈ parts, l.get? (id, p) = l'.get? (id, p)) :
    clusterParts (.ofList spaces) l id parts = clusterParts (.ofList spaces) l' id parts := by
  unfold clusterParts
  cases found : (Catalog.ofList spaces).space id with
  | error fault => rfl
  | ok space =>
    rw [← Catalog.id_of_space found] at same
    change (groupInto l space ∅ parts >>= _) = (groupInto l' space ∅ parts >>= _)
    rw [groupInto_congr same]

end Router

namespace Scatter

variable {α δ : Type}

theorem follows_agree {space : SpaceId} {hints : List (PartId × Option Host)} {l l' : Leaders}
    {p : PartId} (h : p ∈ hints.map (·.1) ∨ l.get? (space, p) = l'.get? (space, p)) :
    (follows space l hints).get? (space, p) = (follows space l' hints).get? (space, p) := by
  induction hints generalizing l l' with
  | nil => exact h.resolve_left List.not_mem_nil
  | cons hint rest ih =>
    refine ih ?_
    rw [Leaders.get?_follow, Leaders.get?_follow]
    by_cases here : p = hint.1
    · right
      rw [if_pos (by rw [here]), if_pos (by rw [here])]
    · have other : (space, p) ≠ (space, hint.1) := fun eq => here (Prod.ext_iff.mp eq).2
      rw [if_neg other, if_neg other]
      exact h.imp_left fun h => (List.mem_cons.mp h).resolve_left here

theorem get?_follows_of_not_mem {space : SpaceId} {hints : List (PartId × Option Host)}
    {p : PartId} (h : p ∉ hints.map (·.1)) (id : SpaceId) (l : Leaders) :
    (follows space l hints).get? (id, p) = l.get? (id, p) := by
  induction hints generalizing l with
  | nil => rfl
  | cons hint rest ih =>
    obtain ⟨other, later⟩ := not_or.mp (mt List.mem_cons.mpr h)
    have step : follows space l (hint :: rest) =
        follows space (Leaders.follow l space hint.1 hint.2) rest := rfl
    rw [step, ih later, Leaders.get?_follow, if_neg fun eq => other (Prod.ext_iff.mp eq).2]

theorem get?_follows {hints : List (PartId × Option Host)} (nodup : (hints.map (·.1)).Nodup)
    (space : SpaceId) (l : Leaders) (p : PartId) :
    (follows space l hints).get? (space, p) = (hints.lookup p).getD (l.get? (space, p)) := by
  induction hints generalizing l with
  | nil => rfl
  | cons hint rest ih =>
    obtain ⟨new, later⟩ := List.nodup_cons.mp nodup
    have step : follows space l (hint :: rest) =
        follows space (Leaders.follow l space hint.1 hint.2) rest := rfl
    rw [step, ih later, Leaders.get?_follow, Table.lookup_cons_ite]
    by_cases here : p = hint.1
    · subst here
      rw [Table.lookup_eq_none new, if_pos rfl, if_pos rfl]
      rfl
    · rw [if_neg fun eq => here (Prod.ext_iff.mp eq).2, if_neg here]

theorem hinted_of_moving {last : Bool} {failures : List PartFailure} {p : PartId}
    (hp : p ∈ moving last failures) : p ∈ (hinted failures).map (·.1) := by
  obtain ⟨x, hx, rfl⟩ := List.mem_map.mp hp
  obtain ⟨listed, moves⟩ := List.mem_filter.mp hx
  have changed : (x.status == .leaderChanged) = true := (Bool.and_eq_true_iff.mp moves).1
  exact List.mem_map.mpr ⟨(x.part, x.leader),
    List.mem_map.mpr ⟨x, List.mem_filter.mpr ⟨listed, changed⟩, rfl⟩, rfl⟩

theorem upshot_congr (limit : Nat) (spaces : List Space) (method : String)
    (leaders leaders' : Leaders) (f : Flight α) (outcome : Except Fault (StorageReply δ)) :
    upshot limit (.ofList spaces) method leaders f outcome =
      upshot limit (.ofList spaces) method leaders' f outcome := by
  cases outcome with
  | error fault => rfl
  | ok reply =>
    have same : Router.clusterParts (.ofList spaces)
        (follows f.request.space leaders (hinted reply.failed)) f.request.space
        (moving (decide (limit ≤ f.wave + 1)) reply.failed) =
      Router.clusterParts (.ofList spaces)
        (follows f.request.space leaders' (hinted reply.failed)) f.request.space
        (moving (decide (limit ≤ f.wave + 1)) reply.failed) :=
      Router.clusterParts_congr fun p hp => follows_agree (.inl (hinted_of_moving hp))
    simp only [upshot, same]

end Scatter

end ClusterClient
