import ClusterClient.Proofs.Attempts
/-!
Which meta host is tried after one that gave no answer, or that named no leader. The route of a
request tells whether it goes to the host believed to lead or to the one believed to be alive.
-/
namespace ClusterClient

namespace MetaLeader

theorem mem_of_choose? {α : Type} {l : List α} {choice : Nat} {x : α}
    (chosen : choose? l choice = some x) : x ∈ l :=
  List.mem_of_getElem? chosen

theorem choose?_isSome {α : Type} {l : List α} (filled : l ≠ []) (choice : Nat) :
    ∃ x, choose? l choice = some x :=
  ⟨_, List.getElem?_eq_getElem (Nat.mod_lt _ (List.length_pos_iff.mpr filled))⟩

variable {m : MetaLeader} {failed : Host}

/-- If there is another host, another host is chosen. -/
theorem other_ne (elsewhere : ∃ h ∈ m.addresses, h ≠ failed) (choice : Nat) :
    m.other failed choice ≠ failed := by
  obtain ⟨h, listed, differs⟩ := elsewhere
  have kept : h ∈ m.addresses.filter fun h => h != failed :=
    List.mem_filter.mpr ⟨listed, bne_iff_ne.mpr differs⟩
  obtain ⟨next, chosen⟩ := choose?_isSome (List.ne_nil_of_mem kept) choice
  rw [other, chosen]
  exact bne_iff_ne.mp (List.mem_filter.mp (mem_of_choose? chosen)).2

theorem rotateLeader_ne (elsewhere : ∃ h ∈ m.addresses, h ≠ failed) (choice : Nat) :
    (m.rotateLeader failed choice).leader ≠ failed := by
  unfold rotateLeader
  split
  · exact other_ne elsewhere choice
  · assumption

theorem rotateActive_ne (elsewhere : ∃ h ∈ m.addresses, h ≠ failed) (choice : Nat) :
    (m.rotateActive failed choice).active ≠ failed := by
  unfold rotateActive
  split
  · exact other_ne elsewhere choice
  · assumption

/-- What a rotation gives up is not the target any more. -/
theorem rotate_target_ne (elsewhere : ∃ h ∈ m.addresses, h ≠ failed) (toLeader : Bool)
    (choice : Nat) : (m.rotate toLeader failed choice).target toLeader ≠ failed := by
  cases toLeader with
  | false => exact rotateActive_ne elsewhere choice
  | true => exact rotateLeader_ne elsewhere choice

@[simp] theorem rotateLeader_active (m : MetaLeader) (failed : Host) (choice : Nat) :
    (m.rotateLeader failed choice).active = m.active := by
  unfold rotateLeader
  split <;> rfl

end MetaLeader

variable {ρ : Type} [Reply ρ]

/-- There was no answer, or one that reports a changed leader and does not name it. -/
def unguided : Except Fault ρ → Prop
  | .error _ => True
  | .ok reply => Reply.status reply = .leaderChanged ∧ Reply.leaderHint reply = none

theorem settles_of_unguided {outcome : Except Fault ρ} (lost : unguided outcome) :
    settles outcome = false := by
  cases outcome with
  | error fault => rfl
  | ok reply => simp [settles, lost.1]

/-- The next host is the same one just if the host that is believed to be alive is the target,
is the one that was tried, and did give an answer. -/
theorem Sending.heed_host_eq_iff {s : Sending} {toLeader : Bool}
    (route : s.route = .metaService toLeader) (e : Estimates) {outcome : Except Fault ρ}
    (lost : unguided outcome) (elsewhere : ∃ h ∈ e.metaLeader.addresses, h ≠ s.host)
    (catalog : Catalog) (choice : Nat) :
    (s.heed catalog choice e outcome).2 = s.host ↔
      toLeader = false ∧ outcome.isOk = true ∧ e.metaLeader.active = s.host := by
  cases outcome with
  | error fault =>
    have next : (s.heed catalog choice e (.error fault : Except Fault ρ)).2 =
        (e.metaLeader.rotate toLeader s.host choice).target toLeader := by
      simp only [heed, afterFailure, route]
    rw [next]
    exact ⟨fun same => absurd same (MetaLeader.rotate_target_ne elsewhere toLeader choice),
      fun h => by cases h.2.1⟩
  | ok reply =>
    have next : (s.heed catalog choice e (.ok reply)).2 =
        (e.metaLeader.rotateLeader s.host choice).target toLeader := by
      simp only [heed, afterLeaderChange, route, lost.2]
    rw [next]
    cases toLeader with
    | false => simp [MetaLeader.target, Except.isOk, Except.toBool]
    | true => simp [MetaLeader.target, MetaLeader.rotateLeader_ne elsewhere choice]

namespace Circumstances

/-- After an attempt that was in vain the next one goes to the same host, though there is
another one, just if the request went to the host believed to be alive and that host did answer
and was believed alive still. -/
theorem same_host_iff (w : Circumstances ρ) (limit : Nat) (method : String) (toLeader : Bool)
    (host : Host) (e : Estimates) {n : Nat} {a : Attempt ρ}
    (nth : (w.send limit method (.metaService toLeader) host e)[n]? = some a) (left : n < limit)
    (lost : unguided a.outcome)
    (elsewhere : ∃ h ∈ a.found.metaLeader.addresses, h ≠ a.sending.host) :
    ∃ b, (w.send limit method (.metaService toLeader) host e)[n + 1]? = some b ∧
      (b.sending.host = a.sending.host ↔
        toLeader = false ∧ a.outcome.isOk = true ∧
          a.found.metaLeader.active = a.sending.host) := by
  obtain ⟨self, number, route, later⟩ := getElem?_attempts nth
  have number : a.sending.retries = n := by simpa using number
  have route : a.sending.route = .metaService toLeader := route
  have outcome : a.outcome = w.outcome a.sending.retries a.sending.host :=
    congrArg Attempt.outcome self
  have found : a.found = w.met a.sending.retries a.began := congrArg Attempt.found self
  have again : a.next? = some (w.follow a.sending a.began) := by
    rw [self]
    exact (attempt_again _ (by rw [← outcome]; exact settles_of_unguided lost) (by omega)).2
  refine ⟨_, later.trans (by rw [again]; rfl), ?_⟩
  have next := Sending.heed_host_eq_iff route (a.found.counting a.outcome) lost elsewhere
    (w.catalog a.sending.retries) (w.choice a.sending.retries)
  rw [outcome, found] at next ⊢
  exact next

namespace Sample

def first : Host := ⟨"m1", 9559⟩
def second : Host := ⟨"m2", 9559⟩

def metaLeader : MetaLeader := ⟨[first, second], first, first⟩

def estimates : Estimates := ⟨∅, metaLeader, .zero⟩

/-- All calls end alike, and nothing else goes on. -/
def always (outcome : Except Fault (MetaReply Unit)) : Circumstances (MetaReply Unit) where
  catalog := fun _ => ∅
  others := fun _ => id
  choice := fun _ => 0
  interval := 10
  outcome := fun _ _ => outcome

def attempts (toLeader : Bool) (outcome : Except Fault (MetaReply Unit)) :
    List (Attempt (MetaReply Unit)) :=
  (always outcome).send 3 "listSpaces" (.metaService toLeader) (metaLeader.target toLeader)
    estimates

end Sample

theorem same_host_iff_in_sample :
    ∃ a b, (Sample.attempts true (.error (.notReady .probing)))[0]? = some a ∧
      (Sample.attempts true (.error (.notReady .probing)))[1]? = some b ∧
      b.sending.host ≠ a.sending.host := by
  have opened : (Sample.attempts true (.error (.notReady .probing)))[0]? = some _ :=
    List.head?_eq_getElem?.symm.trans attempts_head
  obtain ⟨b, next, same⟩ := same_host_iff (Sample.always (.error (.notReady .probing))) 3
    "listSpaces" true Sample.first Sample.estimates opened (by decide) trivial
    ⟨Sample.second, .tail _ (.head _), by decide⟩
  exact ⟨_, b, opened, next, fun still => Bool.noConfusion (same.mp still).1⟩

/-- A host that was taken to be alive reports a changed leader and names none: the next attempt
goes to that host again, though there is another one. -/
theorem same_host_tried_again :
    MetaLeader.start [Sample.first, Sample.second] 0 = .ok Sample.metaLeader ∧
      ∃ a b, (Sample.attempts false (.ok (.leaderChanged none)))[0]? = some a ∧
        (Sample.attempts false (.ok (.leaderChanged none)))[1]? = some b ∧
        unguided a.outcome ∧
        (∃ h ∈ a.found.metaLeader.addresses, h ≠ a.sending.host) ∧
        b.sending.host = a.sending.host := by
  have opened : (Sample.attempts false (.ok (.leaderChanged none)))[0]? = some _ :=
    List.head?_eq_getElem?.symm.trans attempts_head
  have again := (getElem?_attempts opened).2.2.2
  exact ⟨by decide, _, _, opened, again, ⟨rfl, rfl⟩,
    ⟨Sample.second, .tail _ (.head _), by decide⟩, by decide⟩

end Circumstances

end ClusterClient
