import ClusterClient.Options
import ClusterClient.Proofs.Lineage
import ClusterClient.Proofs.Turns
/-!
What becomes of one partition of a scattered request. If hosts answer for each partition on
its own, it goes from host to host as if it had been sent alone, whatever it is sent with and
in whatever order the calls end.
-/
namespace ClusterClient.Scatter

variable {α δ : Type}

/-- The requests are all for one space and share no partition, and each partition has hosts. -/
structure Placed (spaces : List Space) (space : Space) (requests : Table Host (Batch α)) :
    Prop where
  found : (Catalog.ofList spaces).space space.id = .ok space
  one : ∀ host r, requests.get? host = some r → r.space = space.id
  hosts : ∀ host r p, requests.get? host = some r → p ∈ r.partIds → space.parts.getD p [] ≠ []
  disjoint : Disjoint requests

/-- The hosts that were asked for a partition, in order. -/
def visited (calls : List (Flight α)) (p : PartId) : List Host :=
  (calls.filter fun f => decide (p ∈ f.request.partIds)).map Flight.host

theorem visited_append (calls : List (Flight α)) (ticket wave : Nat)
    (more : List (Host × Host × Batch α)) (p : PartId) :
    visited (calls ++ sent ticket wave more) p =
      visited calls p ++ (asking p more).map (·.2.1) := by
  have new : visited (sent ticket wave more) p = (asking p more).map (·.2.1) := by
    have calls := sent_calls ticket wave more
    rw [visited, asking, ← calls, List.filter_map, List.map_map, calls]
    rfl
  rw [← new, visited, visited, visited, List.filter_append, List.map_append]

/-- Where a partition is on its walk: a call for it is under way, and the rest of the walk
begins there, or all of it is over. -/
inductive Stage (v : Service) (limit : Nat) (space : Space) (p : PartId) (whole : Walk)
    (known : Option Host) (l : Ledger α δ) : Prop
  | under (f : Flight α) (here : f ∈ l.state.flights) (own : p ∈ f.request.partIds)
      (before : List Host) (calls : visited l.calls p = before ++ [f.host])
      (hosts : whole.hosts = before ++
        (v.walk limit (space.parts.getD p []) p f.host f.wave).hosts)
      (fate : whole.fate = (v.walk limit (space.parts.getD p []) p f.host f.wave).fate)
      (leader : whole.hint.getD known =
        (v.walk limit (space.parts.getD p []) p f.host f.wave).hint.getD
          (l.estimates.leaders.get? (space.id, p)))
      (unmarked : l.state.failed.get? p = none)
  | ends (still : ∀ f ∈ l.state.flights, p ∉ f.request.partIds)
      (calls : visited l.calls p = whole.hosts) (fate : l.state.failed.get? p = whole.fate)
      (leader : l.estimates.leaders.get? (space.id, p) = whole.hint.getD known)

section Run

variable {v : Service} {limit : Nat} {spaces : List Space} {space : Space} {method : String}
  {requests : Table Host (Batch α)} {l l' : Ledger α δ} {p : PartId} {whole : Walk}
  {known : Option Host}

/-- The call that ended was about other partitions. -/
theorem Stage.aside (stage : Stage v limit space p whole known l)
    (ticketed : Ticketed l.state.flights l.state.dispatched) {f : Flight α}
    (under : f ∈ l.state.flights) {outcome : Except Fault (StorageReply δ)}
    (told : v.Answers f outcome) (foreign : p ∉ f.request.partIds) (catalog : Catalog) :
    Stage v limit space p whole known (l.take limit catalog l.estimates f outcome) := by
  have fair := Service.fair_of_answers told
  rw [Ledger.take_eq ticketed under]
  generalize hu : upshot limit catalog l.state.method l.estimates.leaders f outcome = u
  have calls : visited (l.calls ++ sent l.state.dispatched (f.wave + 1) u.calls) p =
      visited l.calls p := by
    rw [visited_append, ← hu, asking_upshot_of_not_mem foreign, List.map_nil, List.append_nil]
  have unmarked : p ∉ u.marks.map (·.1) := by
    rintro hp
    obtain ⟨e, he, rfl⟩ := List.mem_map.mp hp
    exact foreign (marks_own fair (hu ▸ he))
  have unhinted : p ∉ u.hints.map (·.1) := by
    rintro hp
    obtain ⟨e, he, rfl⟩ := List.mem_map.mp hp
    exact foreign (hints_own fair (hu ▸ he))
  have failed : (l.state.failed.insertAll u.marks).get? p = l.state.failed.get? p := by
    rw [Table.get?_insertAll_of_nodup (hu ▸ marks_nodup fair _ _ _ _),
      Table.lookup_eq_none unmarked, Option.none_or]
  have leader : (follows f.request.space l.estimates.leaders u.hints).get? (space.id, p) =
      l.estimates.leaders.get? (space.id, p) :=
    get?_follows_of_not_mem unhinted space.id l.estimates.leaders
  cases stage with
  | under g here own before visits hosts fate known unfailed =>
    have other : g.ticket ≠ f.ticket := fun same =>
      foreign (Ledger.ticket_eq ticketed here under same ▸ own)
    exact .under g (List.mem_append_left _ (Ledger.mem_others.mpr ⟨here, other⟩)) own before
      (calls.trans visits) hosts fate (leader.symm ▸ known) (failed.trans unfailed)
  | ends still visits fate known =>
    refine .ends (fun g hg => ?_) (calls.trans visits) (failed.trans fate) (leader.trans known)
    rcases List.mem_append.mp hg with hg | hg
    · exact still g (Ledger.mem_others.mp hg).1
    · exact fun hp => foreign ((parts_of_upshot (hu ▸ call_of_sent hg)).2 p hp)

/-- The call that ended was the one for this partition. -/
theorem Stage.taken (stage : Stage v limit space p whole known l)
    (ticketed : Ticketed l.state.flights l.state.dispatched) {f : Flight α}
    (under : f ∈ l.state.flights) (only : ∀ g ∈ l.state.flights, p ∈ g.request.partIds → g = f)
    (own : p ∈ f.request.partIds) {outcome : Except Fault (StorageReply δ)}
    (told : v.Answers f outcome) (found : (Catalog.ofList spaces).space f.request.space = .ok space)
    (placed : ∀ p ∈ f.request.partIds, space.parts.getD p [] ≠ []) :
    Stage v limit space p whole known
      (l.take limit (.ofList spaces) l.estimates f outcome) := by
  have fair := Service.fair_of_answers told
  have marks := lookup_marks found placed told limit l.state.method l.estimates.leaders own
  have hints := Service.lookup_hints told limit (.ofList spaces) l.state.method
    l.estimates.leaders own
  have onward := asking_onward found placed told limit l.state.method l.estimates.leaders own
  have ends := asking_ends told limit (.ofList spaces) l.state.method l.estimates.leaders own
  have failed := Table.get?_insertAll_of_nodup
    (marks_nodup fair limit (.ofList spaces) l.state.method l.estimates.leaders)
    l.state.failed p
  have leader := get?_follows
    (hints_nodup fair limit (.ofList spaces) l.state.method l.estimates.leaders)
    f.request.space l.estimates.leaders p
  have id := Catalog.id_of_space found
  rw [marks] at failed
  rw [hints] at leader
  rw [Ledger.take_eq ticketed under]
  generalize upshot limit (.ofList spaces) l.state.method l.estimates.leaders f outcome = u at *
  cases stage with
  | ends still => exact absurd own (still f under)
  | under g here own' before visits hosts fate known unmarked =>
    cases only g here own'
    have gone : ∀ h ∈ others f l.state.flights, p ∉ h.request.partIds := fun h hh hp =>
      (Ledger.mem_others.mp hh).2 (congrArg Flight.ticket (only h (Ledger.mem_others.mp hh).1 hp))
    cases turned : v.turn (decide (limit ≤ f.wave + 1)) p f.host f.wave with
    | ends last hint =>
      have none := ends last hint turned
      rw [Service.walk_ends turned] at hosts fate known
      rw [turned] at failed leader
      refine .ends (fun h hh => ?_) ?_ ?_ ?_
      · rcases List.mem_append.mp hh with hh | hh
        · exact gone h hh
        · intro hp
          exact List.filter_eq_nil_iff.mp none h.call (call_of_sent hh) (decide_eq_true hp)
      · rw [visited_append, none, visits, hosts, List.map_nil, List.append_nil]
      · rw [failed, unmarked, fate, Option.or_none, Turn.fate]
      · rw [known, id]
        exact leader
    | onward hint =>
      obtain ⟨parts, single⟩ := onward hint turned
      rw [Service.walk_onward turned] at hosts fate known
      dsimp only at hosts fate known
      rw [turned] at failed leader
      have new : (f.origin, successor (space.parts.getD p []) f.host hint,
          f.request.extract parts) ∈ asking p u.calls := single ▸ List.mem_singleton_self _
      obtain ⟨made, mine⟩ := List.mem_filter.mp new
      rw [← sent_calls l.state.dispatched (f.wave + 1) u.calls] at made
      obtain ⟨g, hg, call⟩ := List.mem_map.mp made
      have host : g.host = successor (space.parts.getD p []) f.host hint :=
        congrArg (fun c => c.2.1) call
      have request : g.request = f.request.extract parts := congrArg (fun c => c.2.2) call
      refine .under g (List.mem_append_right _ hg) (request ▸ of_decide_eq_true mine)
        (before ++ [f.host]) ?_ ?_ ?_ ?_ ?_
      · rw [visited_append, single, visits, host]
        rfl
      · rw [hosts, host, wave_of_sent hg, List.append_assoc, List.singleton_append]
      · rw [fate, host, wave_of_sent hg]
      · have believed : (follows f.request.space l.estimates.leaders u.hints).get?
            (f.request.space, p) = hint := leader
        rw [known, host, wave_of_sent hg, id, believed]
        cases (v.walk limit (space.parts.getD p []) p
          (successor (space.parts.getD p []) f.host hint) (f.wave + 1)).hint <;> rfl
      · rw [failed, unmarked]
        rfl

/-- A run in which no other task is at work and hosts answer as they should is a course. -/
theorem course_of_run {allowed : Flight α → Except Fault (StorageReply δ) → Prop}
    (fair : ∀ f reply, allowed f (.ok reply) → Fair f reply) {catalog : Catalog} {e : Estimates}
    (run : Relation.ReflTransGen (Ledger.Takes allowed limit catalog)
      (.opened method requests e) l) : ∃ log, Course Fair limit method requests l.state log := by
  induction run with
  | refl => exact ⟨[], .start e.stats⟩
  | tail _ step ih =>
    obtain ⟨log, course⟩ := ih
    obtain ⟨f, under, outcome, told, rfl⟩ := step
    cases outcome with
    | error fault => exact ⟨log, course.failed under catalog _ fault⟩
    | ok reply => exact ⟨_, course.answered under catalog _ reply (fair f reply told)⟩

theorem stage_opened (placed : Placed spaces space requests) (method : String) (e : Estimates)
    {host : Host} {r : Batch α} (hr : requests.get? host = some r) (hp : p ∈ r.partIds) :
    Stage v limit space p (v.walk limit (space.parts.getD p []) p host 0)
      (e.leaders.get? (space.id, p)) (.opened method requests e : Ledger α δ) := by
  have account : Accounted requests (start method requests e.stats).1
      ([] : List (Answered α δ)) := start_accounted placed.disjoint method e.stats
  have course : Course Fair limit method requests (start method requests e.stats).1
      ([] : List (Answered α δ)) := .start e.stats
  have ticketed := course_ticketed course
  rw [start_eq] at account ticketed
  rw [Ledger.opened_eq]
  have entry : (host, host, r) ∈ opening requests :=
    List.mem_map.mpr ⟨_, Table.get?_eq_some_iff.mp hr, rfl⟩
  rw [← sent_calls 0 0 (opening requests)] at entry
  obtain ⟨f, here, call⟩ := List.mem_map.mp entry
  have host_eq : f.host = host := congrArg (fun c => c.2.1) call
  have request_eq : f.request = r := congrArg (fun c => c.2.2) call
  have own : p ∈ f.request.partIds := request_eq ▸ hp
  have only : (sent 0 0 (opening requests)).filter (fun g => decide (p ∈ g.request.partIds)) =
      [f] := by
    have nodup := List.Nodup.of_map _ ticketed.unique
    refine List.perm_singleton.mp ((List.perm_ext_iff_of_nodup (nodup.filter _)
      (List.nodup_singleton f)).mpr fun g => ?_)
    rw [List.mem_filter, List.mem_singleton, decide_eq_true_iff]
    constructor
    · rintro ⟨hg, own'⟩
      exact flight_unique placed.disjoint account here hg own own'
    · rintro rfl
      exact ⟨here, own⟩
  refine .under f here own [] ?_ ?_ ?_ ?_ rfl
  · rw [visited, only]
    rfl
  all_goals rw [host_eq, wave_of_sent here]
  rfl

theorem stage_of_run (placed : Placed spaces space requests) {e : Estimates}
    (run : Relation.ReflTransGen (Ledger.Takes v.Answers limit (.ofList spaces))
      (.opened method requests e) l)
    {host : Host} {r : Batch α} (hr : requests.get? host = some r) (hp : p ∈ r.partIds) :
    Stage v limit space p (v.walk limit (space.parts.getD p []) p host 0)
      (e.leaders.get? (space.id, p)) l := by
  induction run with
  | refl => exact stage_opened placed method e hr hp
  | @tail l _ run step ih =>
    obtain ⟨log, course⟩ := course_of_run (fun _ _ told => Service.fair told) run
    have account := course_accounted placed.disjoint course
    have ticketed := course_ticketed course
    obtain ⟨f, under, outcome, told, rfl⟩ := step
    by_cases own : p ∈ f.request.partIds
    · -- what the call asks for comes from the requests, and so are its space and its hosts
      have source : ∀ q ∈ f.request.partIds, f.request.space = space.id ∧
          space.parts.getD q [] ≠ [] := by
        intro q hq
        obtain ⟨items, carried⟩ := Table.get?_of_mem_keys hq
        obtain ⟨host, r, hr, same, there⟩ := account.under f under q items carried
        refine ⟨same.symm.trans (placed.one host r hr), placed.hosts host r q hr ?_⟩
        exact Table.mem_keys.mpr (there ▸ rfl)
      exact ih.taken ticketed under
        (fun g hg => flight_unique placed.disjoint account under hg own) own told
        ((source p own).1 ▸ placed.found) fun q hq => (source q hq).2
    · exact ih.aside ticketed under told own _

end Run

/-- Each host is down or answers for each partition on its own. Then, whatever a partition is
sent with and in whatever order the calls end, the request comes to an end, at which the
partition has been where it would have been if it had been sent alone, has failed with what
it would have failed with, or not failed, and what is believed about its leader is what was
last said about it. -/
theorem partitions_walk_alone [Nonempty δ] (options : Options) (v : Service)
    {spaces : List Space} {space : Space} {requests : Table Host (Batch α)}
    (placed : Placed spaces space requests) (method : String) (e : Estimates) {l : Ledger α δ}
    (run : Relation.ReflTransGen (Ledger.Takes v.Answers options.waveLimit (.ofList spaces))
      (.opened method requests e) l) :
    (∃ l', Relation.ReflTransGen (Ledger.Takes v.Answers options.waveLimit (.ofList spaces)) l l' ∧
      l'.state.finished = true) ∧
    (l.state.finished = true → ∀ host r p, requests.get? host = some r → p ∈ r.partIds →
      let alone := v.walk options.waveLimit (space.parts.getD p []) p host 0
      l.state.failed.get? p = alone.fate ∧
      (l.calls.filter fun f => decide (p ∈ f.request.partIds)).map Flight.host = alone.hosts ∧
      l.estimates.leaders.get? (space.id, p) =
        alone.hint.getD (e.leaders.get? (space.id, p))) := by
  constructor
  · refine Ledger.finishes_of_acc (fun f => ?_) (Ledger.reached_acc
      (Ledger.reached_of_run (.start e) run))
    cases down : v.down f.host with
    | true => exact ⟨.error (.missing (.space 0)), down⟩
    | false =>
      obtain ⟨data⟩ := ‹Nonempty δ›
      exact ⟨.ok ⟨_, 0, data⟩, down, .refl _⟩
  · intro finished host r p hr hp
    cases stage_of_run placed run hr hp with
    | under f here =>
      have none : l.state.flights = [] := List.isEmpty_iff.mp finished
      rw [none] at here
      cases here
    | ends still calls fate leader => exact ⟨fate, calls, leader⟩

namespace Sample

def off : Host := ⟨"b", 1⟩

def space : Space :=
  .build 7 ⟨⟨"nba", 3, 1, .int64, 8⟩, .ofList [(1, [near, far]), (2, [off]), (3, [near])],
    [], [], [], []⟩

def twofold : Table Host (Batch Nat) :=
  ⟨[(near, ⟨7, .ofList [(1, [10]), (3, [30])]⟩), (off, ⟨7, .ofList [(2, [20])]⟩)],
    by decide +kernel⟩

/-- The first partition is sent on twice, the second time without a word on its leader. -/
def service : Service where
  down host := decide (host = off)
  verdict _ p wave :=
    if p ≠ 1 then none
    else match wave with
      | 0 => some (.leaderChanged, some far)
      | 1 => some (.leaderChanged, none)
      | _ => none

def answer (host : Host) (request : Batch Nat) (wave : Nat) : Except Fault (StorageReply Unit) :=
  if host = off then .error (.rpcFailed (.reported "down"))
  else .ok ⟨request.partIds.filterMap (service.entry host wave), 5, ()⟩

theorem answers_answer (f : Flight Nat) (outcome : Except Fault (StorageReply Unit))
    (told : Ledger.Told answer f outcome) : service.Answers f outcome := by
  subst told
  unfold answer
  split
  · rename_i down
    exact decide_eq_true down
  · rename_i up
    exact ⟨decide_eq_false up, .refl _⟩

theorem placed : Placed [space] space twofold where
  found := rfl
  one host r hr := by
    have entry := Table.get?_eq_some_iff.mp hr
    simp only [twofold, List.mem_cons, List.not_mem_nil, or_false] at entry
    rcases entry with h | h <;> cases h <;> rfl
  hosts host r p hr hp := by
    have entry := Table.get?_eq_some_iff.mp hr
    have all : (twofold.entries.all fun e => e.2.partIds.all fun p =>
        decide (space.parts.getD p [] ≠ [])) = true := by decide +kernel
    have own := List.all_eq_true.mp (List.all_eq_true.mp all _ entry) p hp
    exact of_decide_eq_true own
  disjoint := disjoint_of_nodup (by decide +kernel)

def settled : Ledger Nat Unit :=
  (Ledger.opened "getProps" twofold estimates).played answer Ledger.Sample.options.waveLimit
    (.ofList [space]) [1, 0, 2, 3]

end Sample

theorem partitions_walk_alone_in_sample :
    Sample.settled.state.failed.get? 2 = some .rpcFailure ∧
    (Sample.settled.calls.filter fun f => decide (1 ∈ f.request.partIds)).map Flight.host =
      [Sample.near, Sample.far, Sample.near] ∧
    Sample.settled.estimates.leaders.get? (7, 1) = none := by
  have run := Relation.ReflTransGen.mono (fun _ _ => Ledger.Takes.mono Sample.answers_answer) _ _
    (Ledger.played_run Sample.answer Ledger.Sample.options.waveLimit (.ofList [Sample.space])
      (.opened "getProps" Sample.twofold Sample.estimates) [1, 0, 2, 3])
  have alone := (partitions_walk_alone Ledger.Sample.options Sample.service Sample.placed
    "getProps" Sample.estimates run).2 (by decide +kernel)
  have first := alone Sample.near ⟨7, .ofList [(1, [10]), (3, [30])]⟩ 1 rfl (by decide +kernel)
  have second := alone Sample.off ⟨7, .ofList [(2, [20])]⟩ 2 rfl (by decide +kernel)
  have walked : Sample.service.walk Ledger.Sample.options.waveLimit
      (Sample.space.parts.getD 1 []) 1 Sample.near 0 =
      ⟨[Sample.near, Sample.far, Sample.near], none, some none⟩ := by
    rw [@Service.walk_onward _ _ _ _ _ (some Sample.far) rfl,
      @Service.walk_onward _ _ _ _ _ none rfl, @Service.walk_ends _ _ _ _ _ none none rfl]
    decide +kernel
  rw [walked] at first
  rw [@Service.walk_ends _ _ _ _ _ (some .rpcFailure) none rfl] at second
  exact ⟨second.1, first.2.1, first.2.2⟩

end ClusterClient.Scatter
