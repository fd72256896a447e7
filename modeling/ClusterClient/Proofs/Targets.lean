import ClusterClient.Proofs.Attempts
import ClusterClient.Proofs.Retries
import ClusterClient.Proofs.Snapshots
/-!
The hosts that a request for one partition goes to. Whatever the answers hint at, and whatever
others make of the catalog meanwhile, each host was given by routing while the request was under
way, and so it held the partition at that time.
-/
namespace ClusterClient

/-- Routing sends the partition to a host that holds it. -/
structure Routed (catalog : Catalog) (leaders : Leaders) (id : SpaceId) (p : PartId)
    (host : Host) : Prop where
  resolved : ∃ found, catalog.partHosts id p = .ok found ∧
    Leaders.resolve leaders found = .ok host ∧ host ∈ found.hosts
  alone : Router.clusterParts catalog leaders id [p] = .ok (.ofList [(host, [p])])
  among : ∀ parts groups, Router.clusterParts catalog leaders id parts = .ok groups → p ∈ parts →
    ∀ host', p ∈ groups.getD host' [] ↔ host' = host

/-- To be routed alone and among others is the same. -/
theorem routed_of_held {catalog : Catalog} {id : SpaceId} {p : PartId} {found : PartHosts}
    (held : catalog.partHosts id p = .ok found) {leaders : Leaders} {host : Host}
    (targeted : Leaders.target? leaders found = some host) :
    Routed catalog leaders id p host where
  resolved := ⟨found, held, Leaders.resolve_of_target? targeted, Leaders.holds_of_target? targeted⟩
  alone := Router.clusterParts_alone held targeted
  among parts groups ok listed host' := by
    obtain ⟨space, known, goes⟩ := Router.target_of_held held targeted
    obtain ⟨space', known', _, grouped⟩ := Router.mem_clusterParts ok
    cases known.symm.trans known'
    rw [grouped, goes]
    constructor
    · rintro ⟨_, ⟨⟩⟩
      rfl
    · rintro rfl
      exact ⟨listed, rfl⟩

namespace Catalog

/-- Nothing is in the catalog but spaces as they are built from what is told about them. -/
def Built (catalog : Catalog) : Prop := ∃ told, catalog = ofData told

/-- A partition that is there at all has hosts. -/
theorem Built.partHosts_cases {catalog : Catalog} (built : catalog.Built) (id : SpaceId)
    (p : PartId) :
    (catalog.partExists id p = true ∧
      ∃ found, catalog.partHosts id p = .ok found ∧ found.hosts ≠ []) ∨
    catalog.partExists id p = false ∧ catalog.partHosts id p =
      .error (.missing (if catalog.contains id then .part id p else .space id)) := by
  obtain ⟨told, rfl⟩ := built
  cases known : (ofData told).spaces.get? id with
  | none =>
    refine .inr ⟨?_, ?_⟩
    · rw [partExists, known]
    · rw [partHosts, space, contains, Table.contains, known]
      rfl
  | some space =>
    obtain ⟨data, rfl⟩ := built_of_get? known
    have listed : (ofData told).contains id = true := by
      rw [contains, Table.contains, known]
      rfl
    have counted : (ofData told).partExists id p = (Space.build id data).parts.contains p := by
      rw [partExists, known]
    have held : (ofData told).partHosts id p = (Space.build id data).partHosts p := by
      rw [partHosts, Catalog.space, known]
      rfl
    rw [counted, held, if_pos listed]
    exact Space.build_partHosts id data p

end Catalog

/-- A request for one partition that has come to its end. -/
structure PartCall (ρ : Type) where
  attempts : List (Attempt ρ)
  result : Option (Except Fault ρ)
  /-- What is believed in the end. -/
  left : Estimates

namespace Circumstances

variable {ρ : Type} [Reply ρ] (w : Circumstances ρ) (limit : Nat)

/-- The whole of a request for a partition, which begins under a catalog. -/
def callPart (method : String) (start : Catalog) (id : SpaceId) (p : PartId) (e : Estimates) :
    PartCall ρ :=
  match Sending.toPart method start e.leaders id p with
  | .error fault => ⟨[], some (.error fault), e⟩
  | .ok s =>
    let log := w.attempts limit s (s.attempt e)
    ⟨log, log.getLast?.bind Attempt.result?, (log.getLast?.map Attempt.left).getD e⟩

/-- Before the attempt with this number the request was sent to this host by routing, which
happens at the start, and when an answer reports a changed leader. -/
def Chosen (start : Catalog) (leaders : Leaders) (id : SpaceId) (p : PartId)
    (log : List (Attempt ρ)) : Nat → Host → Prop
  | 0, host => Routed start leaders id p host
  | n + 1, host => ∃ a, log[n]? = some a ∧ moved a.outcome = true ∧
      Routed (w.catalog n) a.left.leaders id p host

/-- What comes of an attempt, and of the host of the next one if there is a next one. -/
structure Guided (id : SpaceId) (p : PartId) (n : Nat) (a : Attempt ρ)
    (next : Option (Attempt ρ)) : Prop where
  told : a.outcome = w.outcome n a.sending.host
  ended : settles a.outcome = true → next = none
  onward : settles a.outcome = false → n < limit → next.isSome = true
  failed : ∀ fault, a.outcome = .error fault →
    a.left.leaders = a.found.leaders ∧ a.left.metaLeader = a.found.metaLeader ∧
      ∀ b, next = some b → b.sending.host = a.sending.host
  changed : ∀ reply, a.outcome = .ok reply → Reply.status reply = .leaderChanged →
    a.left.leaders = Leaders.follow a.found.leaders id p (Reply.leaderHint reply) ∧
      ∀ b, next = some b → if (w.catalog n).partExists id p then
          Routed (w.catalog n) a.left.leaders id p b.sending.host
        else b.sending.host = a.sending.host

variable {w limit} {id : SpaceId} {p : PartId} {s : Sending} {e : Estimates}

variable (limit e) in
theorem guided_attempt (later : (w.catalog s.retries).Built) (route : s.route = .part id p) :
    w.Guided limit id p s.retries (w.attempt limit s e)
      ((w.attempt limit s e).next?.map fun next => w.attempt limit next.1 next.2) where
  told := rfl
  ended settled := by
    rw [Attempt.next?, (attempt_last e (.inl settled)).1]
    rfl
  onward unsettled left := by
    rw [(attempt_again e unsettled left).2]
    rfl
  failed fault out := by
    obtain ⟨leaders, metaLeader⟩ := left_failed limit e route out
    refine ⟨leaders, metaLeader, fun b here => ?_⟩
    obtain ⟨next, again, rfl⟩ := Option.map_eq_some_iff.mp here
    obtain ⟨-, -, rfl⟩ := again_of_next again
    exact follow_failed e route out
  changed reply out status := by
    have leaders := left_changed limit e route out status
    refine ⟨leaders, fun b here => ?_⟩
    obtain ⟨next, again, rfl⟩ := Option.map_eq_some_iff.mp here
    obtain ⟨-, -, rfl⟩ := again_of_next again
    have goes := (follow_changed e route out).2
    rcases later.partHosts_cases id p with ⟨there, found, held, hosts⟩ | ⟨gone, missing⟩
    · obtain ⟨host, targeted⟩ := Leaders.target?_isSome hosts (w.attempt limit s e).left.leaders
      -- What is counted for the answer does not touch what routing goes by.
      have next : (w.follow s e).1.host = host := by
        rw [leaders] at targeted
        rw [goes, held]
        exact congrArg (Option.getD · s.host) targeted
      rw [if_pos there]
      change Routed _ _ _ _ (w.follow s e).1.host
      rw [next]
      exact routed_of_held held targeted
    · rw [if_neg (by simp [gone])]
      rw [missing] at goes
      exact goes

variable {log : List (Attempt ρ)}

/-- Each attempt of a run, with the number it has. -/
theorem guided_attempts (later : ∀ n, (w.catalog n).Built) (route : s.route = .part id p)
    (first : s.retries = 0) {n : Nat} {a : Attempt ρ}
    (nth : (w.attempts limit s e)[n]? = some a) :
    w.Guided limit id p n a (w.attempts limit s e)[n + 1]? := by
  obtain ⟨self, number, route', next⟩ := getElem?_attempts nth
  rw [first, Nat.zero_add] at number
  have guided := guided_attempt limit a.began (later _) (route'.trans route)
  rw [← self, number] at guided
  rw [next]
  exact guided

/-- Between two attempts the host is chosen anew, or else it is kept. -/
theorem Guided.chosen_or_kept {start : Catalog} {leaders : Leaders} {n : Nat} {a b : Attempt ρ}
    (guided : w.Guided limit id p n a (some b)) (nth : log[n]? = some a) :
    w.Chosen start leaders id p log (n + 1) b.sending.host ∨ b.sending.host = a.sending.host := by
  cases out : a.outcome with
  | error fault => exact .inr ((guided.failed fault out).2.2 b rfl)
  | ok reply =>
    by_cases changed : Reply.status reply = .leaderChanged
    · have goes := (guided.changed reply out changed).2 b rfl
      split at goes
      · exact .inl ⟨a, nth, by simp [moved, out, changed], goes⟩
      · exact .inr goes
    · cases guided.ended (by simp [settles, out, changed])

/-- Every host was chosen at the last moment that one was chosen at. -/
theorem exists_chosen {start : Catalog} {leaders : Leaders} {first : Attempt ρ}
    (begun : log.head? = some first) (routed : Routed start leaders id p first.sending.host)
    (guided : ∀ n a, log[n]? = some a → w.Guided limit id p n a log[n + 1]?) (n : Nat)
    (a : Attempt ρ) (nth : log[n]? = some a) :
    ∃ m ≤ n, w.Chosen start leaders id p log m a.sending.host ∧
      ∀ k b, m ≤ k → k ≤ n → log[k]? = some b → b.sending.host = a.sending.host := by
  induction n generalizing a with
  | zero =>
    rw [List.head?_eq_getElem?, nth] at begun
    cases begun
    refine ⟨0, le_refl _, routed, fun k b _ before kth => ?_⟩
    obtain rfl := Nat.le_zero.mp before
    cases nth.symm.trans kth
    rfl
  | succ n ih =>
    -- A host that is chosen anew is its own witness, and one that is kept has that of before.
    have within : n < log.length :=
      Nat.lt_of_succ_lt (List.getElem?_eq_some_iff.mp nth).1
    have before : log[n]? = some log[n] := List.getElem?_eq_getElem within
    have last : ∀ b, log[n + 1]? = some b → b.sending.host = a.sending.host := by
      intro b here
      cases nth.symm.trans here
      rfl
    have guided := guided n _ before
    rw [nth] at guided
    rcases guided.chosen_or_kept before with chosen | kept
    · refine ⟨n + 1, le_refl _, chosen, fun k b after upto => ?_⟩
      obtain rfl := Nat.le_antisymm upto after
      exact last b
    · obtain ⟨m, early, chosen, since⟩ := ih _ before
      refine ⟨m, Nat.le_succ_of_le early, kept ▸ chosen, fun k b after upto kth => ?_⟩
      rcases Nat.le_succ_iff.mp upto with inside | rfl
      · exact (since k b after inside kth).trans kept.symm
      · exact last b kth

theorem attempts_end (w : Circumstances ρ) (limit : Nat) (s : Sending) (e : Estimates) :
    ∃ a result, (w.attempts limit s e).getLast? = some a ∧ a.result? = some result := by
  induction s, e using attempts.induct w limit with
  | case1 s e ended =>
    rw [attempts_over ended]
    cases turned : (w.attempt limit s e).turn with
    | finish result =>
      refine ⟨w.attempt limit s e, result, rfl, ?_⟩
      rw [Attempt.result?, turned]
    | resend _ | pause _ _ =>
      rw [Attempt.next?, turned] at ended
      cases ended
  | case2 s e next again _ ih =>
    obtain ⟨a, result, last, finished⟩ := ih
    rw [attempts_again again, List.getLast?_cons, last]
    exact ⟨a, result, rfl, finished⟩

theorem callPart_of_missing {start : Catalog} {fault : Fault}
    (missing : start.partHosts id p = .error fault) (w : Circumstances ρ) (limit : Nat)
    (method : String) (e : Estimates) :
    w.callPart limit method start id p e = ⟨[], some (.error fault), e⟩ := by
  have refused : Sending.toPart method start e.leaders id p = .error fault := by
    rw [Sending.toPart, missing]
    rfl
  rw [callPart, refused]

theorem callPart_of_held {start : Catalog} {found : PartHosts} {host : Host}
    (held : start.partHosts id p = .ok found)
    (targeted : Leaders.target? e.leaders found = some host) (w : Circumstances ρ) (limit : Nat)
    (method : String) :
    (w.callPart limit method start id p e).attempts = w.send limit method (.part id p) host e ∧
      (w.callPart limit method start id p e).result.isSome = true := by
  have begun : Sending.toPart method start e.leaders id p =
      .ok ⟨method, .part id p, host, 0⟩ := by
    rw [Sending.toPart, held]
    change (Leaders.resolve e.leaders found >>= _) = _
    rw [Leaders.resolve_of_target? targeted]
    rfl
  rw [callPart, begun]
  refine ⟨rfl, ?_⟩
  obtain ⟨a, result, last, finished⟩ := attempts_end w limit ⟨method, .part id p, host, 0⟩
    (Sending.attempt ⟨method, .part id p, host, 0⟩ e)
  simp only [last, Option.bind_some, finished, Option.isSome_some]

/-- A request for one partition goes to no host but by routing, at its start or after an answer
that reports a changed leader, and stays with that host otherwise. If there is no such partition
to begin with, nothing is sent. -/
theorem call_follows_router {start : Catalog} (built : start.Built)
    (later : ∀ n, (w.catalog n).Built) (limit : Nat) (method : String) (id : SpaceId)
    (p : PartId) (e : Estimates) :
    let call := w.callPart limit method start id p e
    (start.partExists id p = false → call = ⟨[], some (.error (.missing
      (if start.contains id then .part id p else .space id))), e⟩) ∧
    (start.partExists id p = true → call.attempts ≠ [] ∧ call.result.isSome = true) ∧
    ∀ n a, call.attempts[n]? = some a →
      (∃ m ≤ n, w.Chosen start e.leaders id p call.attempts m a.sending.host ∧
        ∀ k b, m ≤ k → k ≤ n → call.attempts[k]? = some b → b.sending.host = a.sending.host) ∧
      w.Guided limit id p n a call.attempts[n + 1]? := by
  intro call
  rcases built.partHosts_cases id p with ⟨there, found, held, hosts⟩ | ⟨gone, missing⟩
  · obtain ⟨host, targeted⟩ := Leaders.target?_isSome hosts e.leaders
    obtain ⟨sent, ended⟩ := callPart_of_held held targeted w limit method
    obtain ⟨first, begun, goes⟩ :
        ∃ first, call.attempts.head? = some first ∧ first.sending.host = host := by
      rw [sent]
      exact ⟨_, attempts_head, rfl⟩
    have guided : ∀ n a, call.attempts[n]? = some a →
        w.Guided limit id p n a call.attempts[n + 1]? := by
      rw [sent]
      exact fun n a => guided_attempts later rfl rfl
    refine ⟨fun gone => ?_, fun _ => ⟨?_, ended⟩, fun n a nth => ⟨?_, guided n a nth⟩⟩
    · rw [there] at gone
      cases gone
    · rintro none
      rw [none] at begun
      cases begun
    · have routed := routed_of_held held targeted
      rw [← goes] at routed
      exact exists_chosen begun routed guided n a nth
  · have refused : call = _ := callPart_of_missing missing w limit method e
    refine ⟨fun _ => refused, fun there => ?_, fun n a nth => ?_⟩
    · rw [gone] at there
      cases there
    · rw [refused] at nth
      cases nth

end Circumstances

namespace PartCall

namespace Sample

def near : Host := ⟨"a", 1⟩
def far : Host := ⟨"b", 1⟩
def stranger : Host := ⟨"c", 1⟩

def catalog (hosts : List Host) : Catalog :=
  .ofData [(7, ⟨⟨"nba", 3, 1, .int64, 8⟩, .ofList [(1, hosts)], [], [], [], []⟩)]

/-- The hosts of the partition change places, and later nobody holds it any more. -/
def world : Circumstances (StorageReply Unit) where
  catalog n := if n = 0 then catalog [far, near] else catalog []
  others _ := id
  choice := id
  interval := 10
  outcome
    | 0, _ => .ok ⟨[⟨1, .leaderChanged, some stranger⟩], 0, ()⟩
    | 1, _ => .error (.notReady .probing)
    | 2, _ => .ok ⟨[⟨1, .leaderChanged, none⟩], 0, ()⟩
    | _, _ => .ok ⟨[], 0, ()⟩

def estimates : Estimates := ⟨∅, ⟨[near], near, near⟩, .zero⟩

def call : PartCall (StorageReply Unit) :=
  world.callPart 3 "getProps" (catalog [near, far]) 7 1 estimates

end Sample

theorem call_follows_router_in_sample :
    Sample.call.attempts.map (fun a => a.sending.host) =
        [Sample.near, Sample.far, Sample.far, Sample.far] ∧
      ∃ a b, Sample.call.attempts[0]? = some a ∧ Sample.call.attempts[1]? = some b ∧
        a.left.leaders.get? (7, 1) = some Sample.stranger ∧
        Routed (Sample.catalog [Sample.far, Sample.near]) a.left.leaders 7 1 b.sending.host := by
  have hosts : Sample.call.attempts.map (fun a => a.sending.host) =
      [Sample.near, Sample.far, Sample.far, Sample.far] := by decide +kernel
  have length : Sample.call.attempts.length = 4 := by simpa using congrArg List.length hosts
  have later : ∀ n, (Sample.world.catalog n).Built := by
    intro n
    simp only [Sample.world]
    split <;> exact ⟨_, rfl⟩
  obtain ⟨-, -, every⟩ := Circumstances.call_follows_router ⟨_, rfl⟩ later 3 "getProps" 7 1
    Sample.estimates
  have zeroth : Sample.call.attempts[0]? = some Sample.call.attempts[0] :=
    List.getElem?_eq_getElem (by omega)
  have first : Sample.call.attempts[1]? = some Sample.call.attempts[1] :=
    List.getElem?_eq_getElem (by omega)
  have guided := (every 0 _ zeroth).2
  obtain ⟨leaders, next⟩ := guided.changed _ guided.told (by decide)
  refine ⟨hosts, _, _, zeroth, first, ?_, ?_⟩
  · rw [leaders]
    rw [Leaders.get?_follow]
    rfl
  · exact (if_pos (by decide +kernel)).mp (next _ first)

end PartCall

end ClusterClient
