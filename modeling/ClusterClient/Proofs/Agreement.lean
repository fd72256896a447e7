import ClusterClient.Proofs.Attempts
import ClusterClient.Proofs.Guidance
import ClusterClient.Proofs.Ledger
/-!
A partition that is sent alone: as a request to one host at a time and as a scattered request
it takes the same way and comes to the same end.
-/
namespace ClusterClient

/-- An answer for one partition, which is named once if it is not done. -/
def StorageReply.Concerns {δ : Type} (p : PartId) (reply : StorageReply δ) : Prop :=
  reply.failed = [] ∨
    ∃ status leader, status ≠ .succeeded ∧ reply.failed = [⟨p, status, leader⟩]

/-- A request for one partition. -/
def Batch.single {α : Type} (space : SpaceId) (p : PartId) (items : List α) : Batch α :=
  ⟨space, .ofList [(p, items)]⟩

theorem Batch.extract_single {α : Type} (space : SpaceId) (p : PartId) (items : List α) :
    (Batch.single space p items).extract [p] = .single space p items := by
  have own : (Batch.single space p items).parts.get? p = some items := by
    simp [Batch.single, Table.get?_ofList]
  simp only [extract, List.filterMap_cons, own, Option.map_some, List.filterMap_nil]
  rfl

namespace Scatter

variable {α δ : Type} {p : PartId} {reply : StorageReply δ}

theorem hinted_of_concerns (told : reply.Concerns p) :
    hinted reply.failed =
      if reply.status = .leaderChanged then [(p, reply.leaderHint)] else [] := by
  rcases told with none | ⟨status, leader, undone, one⟩
  · simp [none, hinted, StorageReply.status]
  · by_cases changed : status = .leaderChanged <;>
      simp [one, hinted, StorageReply.status, StorageReply.leaderHint, changed]

theorem moving_of_concerns (told : reply.Concerns p) (last : Bool) :
    moving last reply.failed =
      if reply.status = .leaderChanged ∧ last = false then [p] else [] := by
  rcases told with none | ⟨status, leader, undone, one⟩
  · simp [none, moving]
    simp [StorageReply.status, none]
  · by_cases changed : status = .leaderChanged <;> cases last <;>
      simp [one, moving, StorageReply.status, PartFailure.moves, changed]

theorem marked_of_concerns (told : reply.Concerns p) (last : Bool) :
    marked last reply.failed =
      if reply.status = .succeeded ∨ reply.status = .leaderChanged ∧ last = false then []
      else [(p, reply.status)] := by
  rcases told with none | ⟨status, leader, undone, one⟩
  · simp [none, marked, StorageReply.status]
  · by_cases changed : status = .leaderChanged <;> cases last <;>
      simp [one, marked, StorageReply.status, PartFailure.moves, changed, undone]

theorem follows_of_concerns (told : reply.Concerns p) (space : SpaceId) (leaders : Leaders) :
    follows space leaders (hinted reply.failed) =
      if reply.status = .leaderChanged then Leaders.follow leaders space p reply.leaderHint
      else leaders := by
  rw [hinted_of_concerns told]
  split <;> rfl

theorem others_self (f : Flight α) : others f [f] = [] := by simp [others]

section Upshot

variable (limit : Nat) (catalog : Catalog) (method : String) (leaders : Leaders) (f : Flight α)

/-- The partition is not sent again. -/
theorem upshot_ends (told : reply.Concerns p)
    (ended : reply.status ≠ .leaderChanged ∨ limit ≤ f.wave + 1) :
    let u := upshot limit catalog method leaders f (.ok reply)
    u.calls = [] ∧ u.marks = if reply.status = .succeeded then [] else [(p, reply.status)] := by
  have still : moving (decide (limit ≤ f.wave + 1)) reply.failed = [] := by
    rw [moving_of_concerns told, if_neg]
    rintro ⟨changed, left⟩
    exact ended.elim (fun other => other changed) (of_decide_eq_false left)
  have marks : marked (decide (limit ≤ f.wave + 1)) reply.failed =
      if reply.status = .succeeded then [] else [(p, reply.status)] := by
    rw [marked_of_concerns told]
    congr 1
    simp only [eq_iff_iff, or_iff_left_iff_imp, decide_eq_false_iff_not]
    rintro ⟨changed, left⟩
    exact ended.elim (fun other => absurd changed other) (fun last => absurd last left)
  simp only [upshot, still, marks]
  rcases clusterParts_nil catalog (follows f.request.space leaders (hinted reply.failed))
    f.request.space with routed | ⟨fault, routed⟩
  · rw [routed]
    exact ⟨rfl, rfl⟩
  · rw [routed]
    exact ⟨rfl, List.append_nil _⟩

/-- The partition is sent again, to the host that it has by then. -/
theorem upshot_again (told : reply.Concerns p) (changed : reply.status = .leaderChanged)
    (left : f.wave + 1 < limit) {found : PartHosts}
    (held : catalog.partHosts f.request.space p = .ok found) {host : Host}
    (targeted : Leaders.target?
      (Leaders.follow leaders f.request.space p reply.leaderHint) found = some host) :
    let u := upshot limit catalog method leaders f (.ok reply)
    u.calls = [(f.origin, host, f.request.extract [p])] ∧ u.marks = [] := by
  have more : decide (limit ≤ f.wave + 1) = false := decide_eq_false (by omega)
  have hints : follows f.request.space leaders (hinted reply.failed) =
      Leaders.follow leaders f.request.space p reply.leaderHint := by
    rw [follows_of_concerns told, if_pos changed]
  simp only [upshot, hints, more, moving_of_concerns told, marked_of_concerns told, changed,
    and_self, if_true, or_true, Router.clusterParts_alone held targeted]
  exact ⟨rfl, trivial⟩

end Upshot

namespace Ledger

variable {server : Host → Batch α → Nat → Except Fault (StorageReply δ)} {limit : Nat}
  {catalog : Catalog} {l l' : Ledger α δ}

/-- With one call under way there is one way to go on. -/
theorem takes_alone {f : Flight α} (only : l.state.flights = [f]) :
    Takes (Told server) limit catalog l l' ↔
      l' = l.take limit catalog l.estimates f (server f.host f.request f.wave) := by
  constructor
  · rintro ⟨g, under, outcome, rfl, rfl⟩
    rw [only, List.mem_singleton] at under
    rw [under]
  · rintro rfl
    exact ⟨f, only ▸ List.mem_singleton_self f, _, rfl, rfl⟩

theorem not_takes_of_over (ended : l.state.flights = []) :
    ¬ Takes (Told server) limit catalog l l' := by
  rintro ⟨g, under, _⟩
  rw [ended] at under
  cases under

end Ledger

end Scatter

/-- A single task sends, and every host gives an answer. -/
def Circumstances.alone {δ : Type} (catalog : Catalog) (choice : Nat → Nat) (interval : Nat)
    (server : Nat → Host → StorageReply δ) : Circumstances (StorageReply δ) where
  catalog := fun _ => catalog
  others := fun _ => id
  choice
  interval
  outcome := fun n host => .ok (server n host)

section Alone

variable {α δ : Type} {catalog : Catalog} {choice : Nat → Nat}
  {server : Nat → Host → StorageReply δ} {limit interval : Nat} {id : SpaceId} {p : PartId}
  {found : PartHosts} {s : Sending} {e : Estimates}

namespace Circumstances

theorem alone_left (route : s.route = .part id p) :
    ((alone catalog choice interval server).attempt limit s e).left.leaders =
      if (server s.retries s.host).status = .leaderChanged then
        Leaders.follow e.leaders id p (server s.retries s.host).leaderHint
      else e.leaders := by
  split
  · rename_i changed
    exact left_changed limit e route rfl changed
  · rename_i other
    exact congrArg Estimates.leaders (left_settled (bne_iff_ne.mpr other))

theorem alone_follow (choice : Nat → Nat) (interval : Nat) (route : s.route = .part id p)
    (held : catalog.partHosts id p = .ok found) {host : Host}
    (targeted : Leaders.target?
      (Leaders.follow e.leaders id p (server s.retries s.host).leaderHint) found = some host) :
    ((alone catalog choice interval server).follow s e).1.host = host ∧
      ((alone catalog choice interval server).follow s e).2.leaders =
        Leaders.follow e.leaders id p (server s.retries s.host).leaderHint := by
  obtain ⟨leaders, next⟩ := follow_changed (w := alone catalog choice interval server) e route rfl
  refine ⟨?_, leaders⟩
  rw [next]
  simp only [alone, held]
  change (Leaders.target? (Leaders.follow e.leaders id p
    (server s.retries s.host).leaderHint) found).getD s.host = host
  rw [targeted]
  rfl

end Circumstances

/-- Both ways of sending are about to hear from the same host, for the same time. -/
structure Twin (id : SpaceId) (p : PartId) (items : List α) (earlier : List Host) (s : Sending)
    (e : Estimates) (l : Scatter.Ledger α δ) : Prop where
  flight : ∃ ticket origin,
    l.state.flights = [⟨ticket, origin, s.host, s.retries, .single id p items⟩]
  ticketed : Scatter.Ticketed l.state.flights l.state.dispatched
  route : s.route = .part id p
  leaders : l.estimates.leaders = e.leaders
  failed : l.state.failed = ∅
  calls : l.calls.map Flight.host = earlier ++ [s.host]

/-- What the scattered request has come to, told by the last attempt of the other one. -/
structure Matches (p : PartId) (hosts : List Host) (a : Attempt (StorageReply δ))
    (reply : StorageReply δ) (l : Scatter.Ledger α δ) : Prop where
  ended : l.state.flights = []
  result : a.result? = some (.ok reply)
  calls : l.calls.map Flight.host = hosts
  leaders : l.estimates.leaders = a.left.leaders
  failed : l.state.failed =
    if reply.status = .succeeded then ∅ else .ofList [(p, reply.status)]

namespace Matches

variable {hosts : List Host} {a : Attempt (StorageReply δ)} {reply : StorageReply δ}
  {l : Scatter.Ledger α δ}

theorem succeeded_iff (same : Matches p hosts a reply l) :
    l.state.succeeded = true ↔ reply.status = .succeeded := by
  rw [Scatter.succeeded, same.failed]
  split
  · simp only [*, iff_true]
    rfl
  · simp only [*, iff_false, Bool.not_eq_true]
    rfl

theorem failed_own (same : Matches p hosts a reply l) (undone : reply.status ≠ .succeeded) :
    l.state.failed.get? p = some reply.status := by
  rw [same.failed, if_neg undone, Table.get?_ofList]
  simp

theorem failed_other (same : Matches p hosts a reply l) (q : PartId) (other : q ≠ p) :
    l.state.failed.get? q = none := by
  rw [same.failed]
  split
  · rfl
  · rw [Table.get?_ofList]
    exact Table.lookup_eq_none (by simpa using other)

end Matches

namespace Twin

open Scatter Ledger
open Circumstances (alone)

variable {items : List α} {earlier : List Host} {l : Ledger α δ}

/-- What the host answers ends both. -/
theorem ends (choice : Nat → Nat) (twin : Twin id p items earlier s e l)
    (told : (server s.retries s.host).Concerns p)
    (last : (server s.retries s.host).status ≠ .leaderChanged ∨ limit ≤ s.retries) :
    ∃ d, (∀ m, Takes (Told fun host _ wave => .ok (server wave host)) (limit + 1) catalog l m ↔
        m = d) ∧
      Matches p (earlier ++ [s.host]) ((alone catalog choice interval server).attempt limit s e)
        (server s.retries s.host) d := by
  obtain ⟨ticket, origin, only⟩ := twin.flight
  refine ⟨_, fun m => takes_alone only, ?_⟩
  obtain ⟨none, marks⟩ := upshot_ends (limit + 1) catalog l.state.method l.estimates.leaders
    ⟨ticket, origin, s.host, s.retries, .single id p items⟩ told (last.imp_right Nat.succ_le_succ)
  rw [take_eq twin.ticketed (only ▸ List.mem_singleton_self _)]
  constructor
  · simp only [none, only, others_self]
    rfl
  · have final : settles ((alone catalog choice interval server).outcome s.retries s.host) = true ∨
        limit ≤ s.retries := last.imp_left bne_iff_ne.mpr
    rw [Attempt.result?, (Circumstances.attempt_last e final).1]
    rfl
  · simp only [none, sent, twin.calls, List.append_nil]
  · simp only [upshot_hints]
    rw [follows_of_concerns told, Circumstances.alone_left twin.route, twin.leaders]
    rfl
  · simp only [marks, twin.failed]
    split <;> rfl

/-- What the host answers makes both go on. -/
theorem goes_on (choice : Nat → Nat) (twin : Twin id p items earlier s e l)
    (told : (server s.retries s.host).Concerns p)
    (changed : (server s.retries s.host).status = .leaderChanged) (left : s.retries < limit)
    (held : catalog.partHosts id p = .ok found) (hosts : found.hosts ≠ []) :
    ∃ d, (∀ m, Takes (Told fun host _ wave => .ok (server wave host)) (limit + 1) catalog l m ↔
        m = d) ∧
      Twin id p items (earlier ++ [s.host]) ((alone catalog choice interval server).follow s e).1
        ((alone catalog choice interval server).follow s e).2 d := by
  obtain ⟨ticket, origin, only⟩ := twin.flight
  refine ⟨_, fun m => takes_alone only, ?_⟩
  have under : (⟨ticket, origin, s.host, s.retries, .single id p items⟩ : Flight α) ∈
      l.state.flights := only ▸ List.mem_singleton_self _
  obtain ⟨host, targeted⟩ := Leaders.target?_isSome hosts
    (Leaders.follow l.estimates.leaders id p (server s.retries s.host).leaderHint)
  obtain ⟨again, marks⟩ := upshot_again (limit + 1) catalog l.state.method l.estimates.leaders
    ⟨ticket, origin, s.host, s.retries, .single id p items⟩ told changed (Nat.succ_lt_succ left)
    held targeted
  rw [twin.leaders] at targeted
  obtain ⟨next, leaders⟩ := Circumstances.alone_follow choice interval twin.route held targeted
  have step : Next (limit + 1) l _ :=
    ⟨_, under, catalog, l.estimates, .ok (server s.retries s.host), rfl⟩
  have ticketed := next_ticketed twin.ticketed step
  refine ⟨?_, ticketed, twin.route, ?_, ?_, ?_⟩
  all_goals rw [take_eq twin.ticketed under]
  · refine ⟨l.state.dispatched, origin, ?_⟩
    simp only [again, only, others_self, sent, Batch.extract_single, next]
    rfl
  · simp only [upshot_hints]
    rw [follows_of_concerns told, if_pos changed, leaders, twin.leaders]
    rfl
  · simp only [marks, twin.failed]
    rfl
  · simp only [again, sent, List.map_append, twin.calls, next]
    rfl

/-- Both come to the same end, and the scattered request has no other way to go. -/
theorem agree (choice : Nat → Nat) (limit : Nat) (told : ∀ n host, (server n host).Concerns p)
    (held : catalog.partHosts id p = .ok found) (hosts : found.hosts ≠ [])
    (twin : Twin id p items earlier s e l) :
    ∃ d a reply, ((alone catalog choice interval server).attempts limit s e).getLast? = some a ∧
      Matches p
        (earlier ++ ((alone catalog choice interval server).attempts limit s e).map
          fun a => a.sending.host) a reply d ∧
      ∀ m, Relation.ReflTransGen
          (Takes (Told fun host _ wave => .ok (server wave host)) (limit + 1) catalog) l m →
        Relation.ReflTransGen
          (Takes (Told fun host _ wave => .ok (server wave host)) (limit + 1) catalog) m d := by
  induction s, e using Circumstances.attempts.induct (alone catalog choice interval server) limit
    generalizing earlier l with
  | case1 s e ended =>
    have last : (server s.retries s.host).status ≠ .leaderChanged ∨ limit ≤ s.retries := by
      by_contra more
      obtain ⟨changed, left⟩ := not_or.mp more
      have unsettled :
          settles ((alone catalog choice interval server).outcome s.retries s.host) = false :=
        bne_eq_false_iff_eq.mpr (not_not.mp changed)
      cases ended.symm.trans
        (Circumstances.attempt_again e unsettled (Nat.lt_of_not_le left)).2
    obtain ⟨d, takes, same⟩ := twin.ends choice (told _ _) last
    rw [Circumstances.attempts_over ended]
    refine ⟨d, _, _, rfl, same, fun m run => ?_⟩
    rcases run.cases_head with rfl | ⟨m', step, later⟩
    · exact .single ((takes d).mpr rfl)
    · cases (takes m').mp step
      rcases later.cases_head with rfl | ⟨m'', step, -⟩
      · exact .refl
      · exact absurd step (not_takes_of_over same.ended)
  | case2 s e next again _ ih =>
    obtain ⟨unsettled, left, rfl⟩ := Circumstances.again_of_next again
    obtain ⟨l', takes, twin'⟩ := twin.goes_on choice (told _ _)
      (bne_eq_false_iff_eq.mp unsettled) left held hosts
    obtain ⟨d, a, reply, last, same, every⟩ := ih twin'
    rw [Circumstances.attempts_again again]
    refine ⟨d, a, reply, ?_, ?_, fun m run => ?_⟩
    · rw [List.getLast?_cons, last]
      rfl
    · rw [List.map_cons, List.append_cons]
      exact same
    · rcases run.cases_head with rfl | ⟨m', step, later⟩
      · exact .head ((takes l').mpr rfl) (every l' .refl)
      · cases (takes m').mp step
        exact every m later

theorem opened (method method' : String) (id : SpaceId) (p : PartId) (host : Host)
    (items : List α) (e : Estimates) :
    Twin id p items [] ⟨method, .part id p, host, 0⟩
      ((⟨method, .part id p, host, 0⟩ : Sending).attempt e)
      (Ledger.opened method' (.ofList [(host, .single id p items)]) e : Ledger α δ) := by
  have start : Reached 0 method' (.ofList [(host, .single id p items)])
      (Ledger.opened method' (.ofList [(host, .single id p items)]) e : Ledger α δ) := .start e
  have ticketed := reached_ticketed start
  refine ⟨?_, ticketed, rfl, ?_, ?_, ?_⟩
  all_goals rw [opened_eq]
  · exact ⟨0, host, rfl⟩
  all_goals rfl

end Twin

/-- One partition sent to one host at a time, and as a scattered request that may go out once
more often: the same hosts are called in the same order, the same is believed about leaders in
the end, and the partition is done for the one just if it is for the other. -/
theorem Scatter.same_way_as_alone (held : catalog.partHosts id p = .ok found)
    (hosts : found.hosts ≠ []) (told : ∀ n host, (server n host).Concerns p)
    (choice : Nat → Nat) (limit : Nat) (method method' : String) (host : Host)
    (items : List α) (e : Estimates) :
    let log := (Circumstances.alone catalog choice interval server).send limit method (.part id p)
      host e
    let takes : Ledger α δ → Ledger α δ → Prop :=
      Ledger.Takes (Ledger.Told fun host _ wave => .ok (server wave host)) (limit + 1) catalog
    ∃ a reply, log.getLast? = some a ∧ a.result? = some (.ok reply) ∧
      ∀ l, Relation.ReflTransGen takes
          (Ledger.opened method' (.ofList [(host, .single id p items)]) e) l →
        (∃ m, Relation.ReflTransGen takes l m ∧ m.state.finished = true) ∧
        (l.state.finished = true →
          l.calls.map Flight.host = log.map (fun a => a.sending.host) ∧
          l.estimates.leaders = a.left.leaders ∧
          (l.state.succeeded = true ↔ reply.status = .succeeded) ∧
          (reply.status ≠ .succeeded → l.state.failed.get? p = some reply.status) ∧
          ∀ q ≠ p, l.state.failed.get? q = none) := by
  intro log takes
  obtain ⟨d, a, reply, last, same, every⟩ :=
    (Twin.opened method method' id p host items e).agree choice limit told held hosts
  refine ⟨a, reply, last, same.result, fun l run => ⟨⟨d, every l run, ?_⟩, fun finished => ?_⟩⟩
  · rw [finished, same.ended]
    rfl
  · rcases (every l run).cases_head with rfl | ⟨m, step, -⟩
    · exact ⟨same.calls, same.leaders, same.succeeded_iff, same.failed_own, same.failed_other⟩
    · exact absurd step (Ledger.not_takes_of_over (List.isEmpty_iff.mp finished))

end Alone

namespace Twin

namespace Sample

def near : Host := ⟨"a", 1⟩
def far : Host := ⟨"b", 1⟩

def space : Space := .build 7 ⟨⟨"nba", 3, 1, .int64, 8⟩, .ofList [(1, [near, far])], [], [], [], []⟩

/-- The first host does not lead, and the second one cannot tell what is wrong. -/
def server (_ : Nat) (host : Host) : StorageReply Unit :=
  if host = near then ⟨[⟨1, .leaderChanged, some far⟩], 5, ()⟩
  else ⟨[⟨1, .unknown, none⟩], 7, ()⟩

theorem server_concerns (n : Nat) (host : Host) : (server n host).Concerns 1 := by
  unfold server
  split
  · exact .inr ⟨_, _, by decide, rfl⟩
  · exact .inr ⟨_, _, by decide, rfl⟩

def estimates : Estimates := ⟨∅, ⟨[near], near, near⟩, .zero⟩

def scattered : Scatter.Ledger Nat Unit :=
  .opened "getProps" (.ofList [(near, .single 7 1 [10])]) estimates

end Sample

theorem same_way_as_alone_in_sample :
    ((Circumstances.alone (.ofList [Sample.space]) id 10 Sample.server).send 3 "getProps"
      (.part 7 1) Sample.near Sample.estimates).map (fun a => a.sending.host) =
        [Sample.near, Sample.far] := by
  let server : Host → Batch Nat → Nat → Except Fault (StorageReply Unit) :=
    fun host _ wave => .ok (Sample.server wave host)
  have held : (Catalog.ofList [Sample.space]).partHosts 7 1 =
      .ok ⟨7, 1, [Sample.near, Sample.far]⟩ := by decide +kernel
  obtain ⟨a, reply, -, -, every⟩ := Scatter.same_way_as_alone held (by decide)
    Sample.server_concerns id 3 "getProps" "getProps" Sample.near [10] Sample.estimates
  have run := Scatter.Ledger.played_run server 4 (.ofList [Sample.space]) Sample.scattered [0, 1]
  have same := ((every _ run).2 (by decide +kernel)).1
  rw [← same]
  decide +kernel

end Twin

end ClusterClient
