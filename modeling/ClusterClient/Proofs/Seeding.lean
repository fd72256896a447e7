import ClusterClient.Proofs.Client.Beats
import ClusterClient.Proofs.Guidance
import ClusterClient.Proofs.Reloads
/-!
Which leaders a client goes by once it has loaded all data: those that the storage hosts claim to
be, as far as they are online and hold the partition, over what it went by before.
-/
namespace ClusterClient

/-- The host is online and reports that it leads the partition, which it holds in that catalog. -/
structure HostItem.Claims (item : HostItem) (catalog : Catalog) (space : SpaceId) (part : PartId) :
    Prop where
  online : item.status = .online
  reports : ∃ parts, item.leaderParts.get? space = some parts ∧ part ∈ parts
  holds : ∃ p, catalog.partHosts space part = .ok p ∧ item.host ∈ p.hosts

theorem Catalog.named_of_partHosts {spaces : List Space} {id : SpaceId} {part : PartId}
    {p : PartHosts} (held : (Catalog.ofList spaces).partHosts id part = .ok p) :
    (p.space, p.part) = (id, part) := by
  unfold Catalog.partHosts at held
  cases found : (Catalog.ofList spaces).space id with
  | error fault =>
    rw [found] at held
    cases held
  | ok s =>
    rw [found] at held
    have held : s.partHosts part = .ok p := held
    rw [← Catalog.id_of_space found]
    unfold Space.partHosts at held
    cases here : s.parts.get? part with
    | none =>
      rw [here] at held
      cases held
    | some hosts =>
      rw [here] at held
      cases held
      rfl

namespace Leaders

/-- The leaders after a load: the last claim in the list of hosts counts. Where there is none, a
space that is gone has no leaders any more, and all else is as before. -/
structure Seeded (old new : Catalog) (hosts : List HostItem) (before after : Leaders) : Prop where
  claimed : ∀ space part earlier item later, hosts = earlier ++ item :: later →
    item.Claims new space part → (∀ other ∈ later, ¬ other.Claims new space part) →
      after.get? (space, part) = some item.host
  gone : ∀ space part, (∀ item ∈ hosts, ¬ item.Claims new space part) →
    space ∈ old.spaceIds → space ∉ new.spaceIds → after.get? (space, part) = none
  kept : ∀ space part, (∀ item ∈ hosts, ¬ item.Claims new space part) →
    space ∉ old.spaceIds ∨ space ∈ new.spaceIds →
      after.get? (space, part) = before.get? (space, part)

/-- A host with its reports in the order in which they are gone through. -/
abbrev Visit := HostItem × List (SpaceId × List PartId)

/-- The hosts are gone through in the order of their list, the reports of each in any order. -/
structure Visits (hosts : List HostItem) (visits : List Visit) : Prop where
  hosts : visits.map (·.1) = hosts
  reports : ∀ v ∈ visits, v.2.Perm v.1.leaderParts.entries

/-- What a host says it leads, as far as it holds it. -/
def claimed (catalog : Catalog) (host : Host) (reports : List (SpaceId × List PartId)) :
    List ((SpaceId × PartId) × Host) :=
  reports.flatMap fun (space, parts) =>
    match catalog.spaces.get? space with
    | none => []
    | some s => (parts.filter fun part => decide (host ∈ s.parts.getD part [])).map
        fun part => ((space, part), host)

def claimedIn (catalog : Catalog) (visits : List Visit) : List ((SpaceId × PartId) × Host) :=
  (visits.filter fun v => v.1.status == .online).flatMap fun v => claimed catalog v.1.host v.2

/-- The leaders after a load that goes through everything in that order. -/
def reseed (catalog : Catalog) (gone : List SpaceId) (visits : List Visit) (before : Leaders) :
    Leaders :=
  (gone.foldl forgetSpace before).insertAll (claimedIn catalog visits)

/-- The spaces that are gone from one catalog to another. -/
def goneSpaces (old new : Catalog) : List SpaceId :=
  old.spaceIds.filter fun id => !new.contains id

variable {catalog old new : Catalog} {host : Host} {hosts : List HostItem} {visits : List Visit}
  {before after : Leaders} {space : SpaceId} {part : PartId}

theorem holds_iff : (∃ p, catalog.partHosts space part = .ok p ∧ host ∈ p.hosts) ↔
    ∃ s, catalog.spaces.get? space = some s ∧ host ∈ s.parts.getD part [] := by
  unfold Catalog.partHosts Catalog.space
  cases catalog.spaces.get? space with
  | none =>
    constructor
    · rintro ⟨p, held, _⟩
      cases held
    · rintro ⟨s, known, _⟩
      cases known
  | some s =>
    change (∃ p, s.partHosts part = .ok p ∧ host ∈ p.hosts) ↔ _
    simp only [Option.some.injEq, exists_eq_left', Space.partHosts, Table.getD]
    cases s.parts.get? part <;> simp [Space.found]

theorem mem_claimed (reports : List (SpaceId × List PartId)) (k : SpaceId × PartId) :
    k ∈ (claimed catalog host reports).map (·.1) ↔
      (∃ parts, (k.1, parts) ∈ reports ∧ k.2 ∈ parts) ∧
        ∃ p, catalog.partHosts k.1 k.2 = .ok p ∧ host ∈ p.hosts := by
  obtain ⟨space, part⟩ := k
  simp only [holds_iff, claimed, List.map_flatMap, List.mem_flatMap, Prod.exists]
  constructor
  · rintro ⟨space', parts, listed, here⟩
    split at here
    · simp at here
    · rename_i s known
      simp only [List.map_map, List.mem_map, List.mem_filter, decide_eq_true_eq,
        Function.comp_apply, Prod.mk.injEq] at here
      obtain ⟨_, ⟨reported, holds⟩, rfl, rfl⟩ := here
      exact ⟨⟨parts, listed, reported⟩, s, known, holds⟩
  · rintro ⟨⟨parts, listed, reported⟩, s, known, holds⟩
    refine ⟨space, parts, listed, ?_⟩
    simp only [known, List.map_map, List.mem_map, List.mem_filter, decide_eq_true_eq,
      Function.comp_apply, Prod.mk.injEq]
    exact ⟨part, ⟨reported, holds⟩, trivial, rfl⟩

theorem claimed_same (reports : List (SpaceId × List PartId)) :
    ∀ e ∈ claimed catalog host reports, e.2 = host := by
  intro e listed
  simp only [claimed, List.mem_flatMap] at listed
  obtain ⟨⟨space, parts⟩, _, listed⟩ := listed
  split at listed
  · cases listed
  · obtain ⟨_, _, rfl⟩ := List.mem_map.mp listed
    rfl

theorem claims_iff {v : Visit} (reports : v.2.Perm v.1.leaderParts.entries)
    (online : v.1.status = .online) (k : SpaceId × PartId) :
    k ∈ (claimed catalog v.1.host v.2).map (·.1) ↔ v.1.Claims catalog k.1 k.2 := by
  simp only [mem_claimed, reports.mem_iff, ← Table.get?_eq_some_iff]
  constructor
  · rintro ⟨reports, holds⟩
    exact ⟨online, reports, holds⟩
  · exact fun h => ⟨h.reports, h.holds⟩

/-- The order in which reports are gone through makes no difference to which claims there are. -/
theorem mem_claimedIn (visits_hosts : Visits hosts visits) (k : SpaceId × PartId) :
    k ∈ (claimedIn catalog visits).map (·.1) ↔ ∃ item ∈ hosts, item.Claims catalog k.1 k.2 := by
  obtain ⟨rfl, reports⟩ := visits_hosts
  simp only [claimedIn, List.map_flatMap, List.mem_flatMap, List.mem_filter, beq_iff_eq]
  constructor
  · rintro ⟨v, ⟨visited, online⟩, listed⟩
    exact ⟨v.1, List.mem_map_of_mem visited, (claims_iff (reports v visited) online k).mp listed⟩
  · rintro ⟨item, listed, claims⟩
    obtain ⟨v, visited, rfl⟩ := List.mem_map.mp listed
    exact ⟨v, ⟨visited, claims.online⟩, (claims_iff (reports v visited) claims.online k).mpr claims⟩

theorem claimedIn_append (catalog : Catalog) (visits visits' : List Visit) :
    claimedIn catalog (visits ++ visits') =
      claimedIn catalog visits ++ claimedIn catalog visits' := by
  simp [claimedIn]

theorem claimedIn_cons {v : Visit} (online : v.1.status = .online) (visits : List Visit) :
    claimedIn catalog (v :: visits) =
      claimed catalog v.1.host v.2 ++ claimedIn catalog visits := by
  simp [claimedIn, online]

theorem get?_forgetSpaces (gone : List SpaceId) (l : Leaders) (k : SpaceId × PartId) :
    (gone.foldl forgetSpace l).get? k = if k.1 ∈ gone then none else l.get? k := by
  induction gone generalizing l with
  | nil => rfl
  | cons id gone ih =>
    rw [List.foldl_cons, ih, forgetSpace, Table.get?_filter]
    by_cases here : k.1 = id
    · cases l.get? k <;> simp [here, Option.filter]
    · cases l.get? k <;> simp [here, Option.filter]

theorem mem_goneSpaces :
    space ∈ goneSpaces old new ↔ space ∈ old.spaceIds ∧ space ∉ new.spaceIds := by
  simp [goneSpaces, Catalog.contains, Catalog.spaceIds, Table.contains, Table.mem_keys]

theorem reseed_seeded (visits_hosts : Visits hosts visits) {gone : List SpaceId}
    (all : gone.Perm (goneSpaces old new)) :
    Seeded old new hosts before (reseed new gone visits before) := by
  have unclaimed : ∀ {space part}, (∀ item ∈ hosts, ¬ item.Claims new space part) →
      (reseed new gone visits before).get? (space, part) =
        if space ∈ old.spaceIds ∧ space ∉ new.spaceIds then none
        else before.get? (space, part) := by
    intro space part none
    have absent : (space, part) ∉ (claimedIn new visits).map (·.1) := by
      intro here
      obtain ⟨item, listed, claims⟩ := (mem_claimedIn visits_hosts _).mp here
      exact none item listed claims
    rw [reseed, Table.get?_insertAll_of_not_mem absent, get?_forgetSpaces]
    simp only [all.mem_iff, mem_goneSpaces]
  constructor
  · intro space part earlier item later split claims last
    obtain ⟨listed, reports⟩ := visits_hosts
    obtain ⟨visits₁, rest, rfl, _, same⟩ := List.map_eq_append_iff.mp (listed.trans split)
    obtain ⟨v, visits₂, rfl, rfl, later_hosts⟩ := List.map_eq_cons_iff.mp same
    have after : Visits later visits₂ :=
      ⟨later_hosts, fun v h => reports v (by simp [h])⟩
    have absent : (space, part) ∉ (claimedIn new visits₂).map (·.1) := by
      intro here
      obtain ⟨other, there, claims⟩ := (mem_claimedIn after _).mp here
      exact last other there claims
    have here := (claims_iff (reports v (by simp)) claims.online (space, part)).mpr claims
    rw [reseed, claimedIn_append, claimedIn_cons claims.online, Table.insertAll_append,
      Table.insertAll_append, Table.get?_insertAll_of_not_mem absent,
      Table.get?_insertAll_same (claimed_same v.2), if_pos here]
  · exact fun space part none was lost => (unclaimed none).trans (if_pos ⟨was, lost⟩)
  · intro space part none still
    refine (unclaimed none).trans (if_neg ?_)
    rintro ⟨was, lost⟩
    exact still.elim (absurd was) lost

theorem exists_last {α : Type} {l : List α} {P : α → Prop} (some : ∃ a ∈ l, P a) :
    ∃ earlier a later, l = earlier ++ a :: later ∧ P a ∧ ∀ b ∈ later, ¬ P b := by
  induction l with
  | nil => simp at some
  | cons a l ih =>
    by_cases later : ∃ b ∈ l, P b
    · obtain ⟨earlier, b, rest, rfl, here, last⟩ := ih later
      exact ⟨a :: earlier, b, rest, rfl, here, last⟩
    · obtain ⟨b, listed, here⟩ := some
      have same : b = a := (List.mem_cons.mp listed).resolve_right fun h => later ⟨b, h, here⟩
      exact ⟨[], a, l, rfl, same ▸ here, fun b h more => later ⟨b, h, more⟩⟩

/-- Nothing is left open about the leaders after a load. -/
theorem Seeded.unique {after' : Leaders} (h : Seeded old new hosts before after)
    (h' : Seeded old new hosts before after') : after = after' := by
  refine Table.ext_get? fun (space, part) => ?_
  by_cases some : ∃ item ∈ hosts, item.Claims new space part
  · obtain ⟨earlier, item, later, split, claims, last⟩ := exists_last some
    rw [h.claimed _ _ _ _ _ split claims last, h'.claimed _ _ _ _ _ split claims last]
  · have none : ∀ item ∈ hosts, ¬ item.Claims new space part := fun item listed claims =>
      some ⟨item, listed, claims⟩
    by_cases gone : space ∈ old.spaceIds ∧ space ∉ new.spaceIds
    · rw [h.gone _ _ none gone.1 gone.2, h'.gone _ _ none gone.1 gone.2]
    · have still : space ∉ old.spaceIds ∨ space ∈ new.spaceIds := by
        by_cases was : space ∈ old.spaceIds
        · exact .inr (not_not.mp fun lost => gone ⟨was, lost⟩)
        · exact .inl was
      rw [h.kept _ _ none still, h'.kept _ _ none still]

theorem visits_listed (hosts : List HostItem) :
    Visits hosts (hosts.map fun item => (item, item.leaderParts.entries)) where
  hosts := by
    rw [List.map_map]
    exact List.map_id hosts
  reports v visited := by
    obtain ⟨item, _, rfl⟩ := List.mem_map.mp visited
    exact .refl _

/-- A claim that was taken over is what a request for the partition goes by. -/
theorem Seeded.resolved {spaces : List Space} (h : Seeded old (.ofList spaces) hosts before after)
    {earlier later : List HostItem} {item : HostItem} (split : hosts = earlier ++ item :: later)
    (claims : item.Claims (.ofList spaces) space part)
    (last : ∀ other ∈ later, ¬ other.Claims (.ofList spaces) space part) :
    ∃ p, (Catalog.ofList spaces).partHosts space part = .ok p ∧
      resolve after p = .ok item.host := by
  obtain ⟨p, held, holds⟩ := claims.holds
  have named : (p.space, p.part) = (space, part) := Catalog.named_of_partHosts held
  refine ⟨p, held, ?_⟩
  simp only [resolve, target?, named, h.claimed _ _ _ _ _ split claims last, if_pos holds]

end Leaders

namespace Client

variable {c d : Client} {t : TaskId} {job : Job} {w : Work} {q : Query} {spaces : List Space}
  {hosts : List HostItem} {e : Event}

/-- The work has all the answers that a load of data asks for. -/
inductive Complete : Work → List Space → List HostItem → Prop
  | bare {w : Work} {hosts : List HostItem} (stage : w.stage = .listing)
      (spaces : w.slots .spaces = .done []) (known : w.slots .hosts = .done hosts) :
    Complete w [] hosts
  | last {w : Work} {id : SpaceId} {built : List Space} {hosts : List HostItem} {data : SpaceData}
      (stage : w.stage = .space id [] built hosts)
      (desc : w.slots .desc = .done data.desc) (parts : w.slots .parts = .done data.parts)
      (tags : w.slots .tags = .done data.tags) (edges : w.slots .edges = .done data.edges)
      (tagIndexes : w.slots .tagIndexes = .done data.tagIndexes)
      (edgeIndexes : w.slots .edgeIndexes = .done data.edgeIndexes) :
    Complete w (built ++ [.build id data]) hosts

/-- With that event a load of the task has its last answer. -/
inductive Completes (c : Client) (t : TaskId) (spaces : List Space) (hosts : List HostItem) :
    Event → Prop
  | intro {q : Query} {job : Job} {w : Work} {s : Sending} (choice : Nat) (leader : Option Host)
      {v : q.Value} (calling : c.Calling t q job w s)
      (complete : Complete { w with slots := w.slots.set q (.done v) } spaces hosts) :
    Completes c t spaces hosts (.answer t q choice (.ok ⟨.succeeded, leader, v⟩))

/-- The client with other beliefs about the leaders of partitions. -/
def believing (c : Client) (leaders : Leaders) : Client :=
  { c with estimates := { c.estimates with leaders } }

theorem Complete.advance_eq (h : Complete w spaces hosts) (c : Client) (job : Job) :
    c.advance job w = (c.install (.ofList spaces) hosts).loaded job w := by
  cases h with
  | bare stage spaces known => simp [advance, stage, spaces, known, spaceBuilt]
  | last stage desc parts tags edges tagIndexes edgeIndexes =>
    simp [advance, stage, desc, parts, tags, edges, tagIndexes, edgeIndexes, spaceBuilt]

theorem answer_done {s : Sending} (calling : c.Calling t q job w s) (choice : Nat)
    (leader : Option Host) (v : q.Value) :
    c.answer t q choice (.ok ⟨.succeeded, leader, v⟩) =
      let (d, progress) := c.advance job { w with slots := w.slots.set q (.done v) }
      d.proceed t job progress := by
  have succeeded : (Reply.status (⟨.succeeded, leader, v⟩ : MetaReply q.Value)) = .succeeded := rfl
  simp [answer, calling.task, calling.slot, Sending.receive, succeeded, MetaReply.toExcept]

/-- The clients go by the same directory and the same leaders. -/
structure Agrees (c d : Client) : Prop where
  directory : d.directory = c.directory
  leaders : d.estimates.leaders = c.estimates.leaders

theorem Ending.agrees {result : Except Fault Payload} (h : Ending c t job result d) :
    Agrees c d := by
  cases h <;> exact ⟨rfl, rfl⟩

theorem proceed_agrees (c : Client) (t : TaskId) (job : Job) (progress : Progress) :
    Agrees c (c.proceed t job progress) := by
  cases progress with
  | more w => exact ⟨rfl, rfl⟩
  | ended result => exact (c.conclude_ending t job result).agrees

theorem loaded_agrees (c : Client) (job : Job) (w : Work) : Agrees c (c.loaded job w).1 := by
  unfold loaded settled
  split
  · exact ⟨rfl, rfl⟩
  · split
    · cases w.remote <;> exact ⟨rfl, rfl⟩
    · exact ⟨rfl, rfl⟩

/-- What a load leaves behind that has all its answers, whatever was believed before it and in
whatever order it goes through the spaces that are gone and the reports of each host. -/
structure Reseeded (c d : Client) (spaces : List Space) (hosts : List HostItem) : Prop where
  catalog : d.directory.catalog = .ofList spaces
  leaders : Leaders.Seeded c.directory.catalog (.ofList spaces) hosts c.estimates.leaders
    d.estimates.leaders
  ordered : ∀ gone visits,
    gone.Perm (Leaders.goneSpaces c.directory.catalog (.ofList spaces)) →
      Leaders.Visits hosts visits →
        Leaders.reseed (.ofList spaces) gone visits c.estimates.leaders = d.estimates.leaders
  resolved : ∀ space part earlier item later, hosts = earlier ++ item :: later →
    item.Claims (.ofList spaces) space part →
      (∀ other ∈ later, ¬ other.Claims (.ofList spaces) space part) →
        ∃ p, d.directory.catalog.partHosts space part = .ok p ∧
          Leaders.resolve d.estimates.leaders p = .ok item.host

theorem install_leaders (c : Client) (catalog : Catalog) (hosts : List HostItem) :
    (c.install catalog hosts).directory.catalog = catalog ∧
      (c.install catalog hosts).estimates.leaders =
        Leaders.reseed catalog (Leaders.goneSpaces c.directory.catalog catalog)
          (hosts.map fun item => (item, item.leaderParts.entries)) c.estimates.leaders := by
  have seeds : Leaders.claimedIn catalog (hosts.map fun item => (item, item.leaderParts.entries)) =
      Leaders.seeds catalog hosts := by
    rw [Leaders.claimedIn, List.filter_map, List.flatMap_map]
    rfl
  simp only [install, compare, notify_eq, Leaders.reseed, seeds]
  exact ⟨trivial, rfl⟩

theorem install_reseeded (c : Client) (spaces : List Space) (hosts : List HostItem) :
    Reseeded c (c.install (.ofList spaces) hosts) spaces hosts := by
  obtain ⟨catalog, leaders⟩ := c.install_leaders (.ofList spaces) hosts
  have seeded : Leaders.Seeded c.directory.catalog (.ofList spaces) hosts c.estimates.leaders _ :=
    Leaders.reseed_seeded (Leaders.visits_listed hosts) (.refl _)
  rw [← leaders] at seeded
  refine ⟨catalog, seeded, fun gone visits all visited => ?_, fun _ _ _ _ _ split claims last => ?_⟩
  · exact (Leaders.reseed_seeded visited all).unique seeded
  · rw [catalog]
    exact seeded.resolved split claims last

theorem Reseeded.agrees {e : Client} (h : Reseeded c d spaces hosts) (agrees : Agrees d e) :
    Reseeded c e spaces hosts := by
  obtain ⟨catalog, leaders, ordered, resolved⟩ := h
  rw [← agrees.directory] at catalog resolved
  rw [← agrees.leaders] at leaders ordered resolved
  exact ⟨catalog, leaders, ordered, resolved⟩

theorem Completes.reseeded (h : Completes c t spaces hosts e) :
    Reseeded c (c.step e) spaces hosts := by
  cases h with
  | @intro q job w s choice leader v calling complete =>
    have installed := c.install_reseeded spaces hosts
    have loaded := (c.install (.ofList spaces) hosts).loaded_agrees job
      { w with slots := w.slots.set q (.done v) }
    rw [step, answer_done calling, complete.advance_eq c job]
    exact (installed.agrees loaded).agrees (proceed_agrees _ t job _)

theorem Completes.believing (h : Completes c t spaces hosts e) (leaders : Leaders) :
    Completes (c.believing leaders) t spaces hosts e := by
  cases h with
  | intro choice leader calling complete =>
    exact .intro choice leader ⟨calling.task, calling.slot⟩ complete

theorem Cycling.gathered {c₀ : Client} {events : List Event} (h : Cycling c₀ t events c w)
    (complete : Complete w spaces hosts) : Gathered c₀ t events spaces [] hosts := by
  cases complete with
  | bare stage spaces known => exact h.listed_data stage spaces known
  | last stage desc parts tags edges tagIndexes edgeIndexes =>
    exact h.built_data stage desc parts tags edges tagIndexes edgeIndexes

theorem complete_of_ended {result : Except Fault Payload}
    (h : Advancing c .loadData w d (.ended result))
    (stage : w.stage = .listing ∨ ∃ id rest built hosts, w.stage = .space id rest built hosts) :
    ∃ spaces hosts, Complete w spaces hosts := by
  have apart : ∀ {other}, w.stage = other → other ≠ .listing →
      (∀ id rest built hosts, other ≠ .space id rest built hosts) → False := by
    rintro other rfl listing space
    rcases stage with eq | ⟨id, rest, built, hosts, eq⟩
    · exact listing eq
    · exact space id rest built hosts eq
  cases h with
  | beats _ stage _ _ _ _ _ => exact (apart stage (by simp) (by simp)).elim
  | configures _ stage _ _ => exact (apart stage (by simp) (by simp)).elim
  | asked _ _ stage _ => exact (apart stage (by simp) (by simp)).elim
  | lists stage names hosts heard built known =>
    generalize ids : names.map SpaceName.id = rest at built
    cases built with
    | bare other _ => exact absurd rfl other
    | data _ =>
      rw [List.map_eq_nil_iff.mp ids] at heard
      exact ⟨_, _, .bare stage heard known⟩
  | builds id rest built hosts stage data desc parts tags edges tagIndexes edgeIndexes next =>
    cases next with
    | bare other _ => exact absurd rfl other
    | data _ => exact ⟨_, _, .last stage desc parts tags edges tagIndexes edgeIndexes⟩

/-- Only a cycle or a load of data can have all that a load asks for. -/
theorem Complete.stage {slot : q.Value}
    (h : Complete { w with slots := w.slots.set q (.done slot) } spaces hosts) :
    w.stage = .listing ∨ ∃ id rest built hosts, w.stage = .space id rest built hosts := by
  cases h with
  | bare stage _ _ => exact .inl stage
  | last stage _ _ _ _ _ _ => exact .inr ⟨_, _, _, _, stage⟩

theorem Completes.busy (h : Completes c t spaces hosts e) (regular : Regular c) : c.Busy t := by
  cases h with
  | @intro q job w s choice leader v calling complete =>
    refine ⟨job, w, calling.task, ?_⟩
    have suits := regular.suits _ _ _ calling.task
    cases job with
    | stop clear => exact absurd rfl (suits.worker clear)
    | heartbeat =>
      obtain ⟨r, stage⟩ := suits.heartbeat rfl
      rcases complete.stage with eq | ⟨_, _, _, _, eq⟩ <;> cases stage.symm.trans eq
    | ask =>
      obtain ⟨_, r, stage⟩ := suits.ask rfl
      rcases complete.stage with eq | ⟨_, _, _, _, eq⟩ <;> cases stage.symm.trans eq
    | _ => rfl

/-- The data of a load are what the task was told itself, from the step on with which it got to
work. -/
def ToldAtWork (c : Client) (t : TaskId) (events : List Event) (e : Event) (spaces : List Space)
    (hosts : List HostItem) : Prop :=
  ∃ before first after, events = before ++ first :: after ∧ ¬ (c.run before).Working t ∧
    (∀ seen, seen <+: after → (c.run (before ++ first :: seen)).Busy t) ∧
      Gathered (c.run (before ++ [first])) t (after ++ [e]) spaces [] hosts

/-- A load at work reads what it is to read. -/
theorem reading_of_entered (regular : Regular c) {events : List Event}
    (entered : Entered c events t) (load : job.loads = true)
    (task : (c.run events).task? t = some ⟨job, .working w⟩) : Reading job w := by
  obtain ⟨before, first, after, job₀, rfl, _, begun, _, goes⟩ := entered
  have regular' := run_regular regular (before ++ [first])
  rw [run_past] at task
  obtain ⟨job', standing, task', kept⟩ := run_keepsJob regular' after begun
  cases task'.symm.trans task
  cases kept with
  | tries | told => cases load
  | same =>
    have loading : (c.run (before ++ [first])).Loading t job := by
      intro w at_work
      cases at_work.symm.trans begun
      exact reading_begin _ _
    exact run_loading regular' load begun loading after
      (fun seen h => c.run_past before seen first ▸ goes seen h) w task

theorem Completes.told (regular : Regular c) (idle : ¬ c.Busy t) {events : List Event}
    (h : (c.run events).Completes t spaces hosts e) : ToldAtWork c t events e spaces hosts := by
  have entered := run_entered regular idle events (h.busy (run_regular regular events))
  cases h with
  | @intro q job w s choice leader v calling complete =>
    have reading := fun load => reading_of_entered regular entered load calling.task
    obtain ⟨before, first, after, job₀, rfl, resting, begun, fills, goes⟩ := entered
    refine ⟨before, first, after, rfl, resting, goes, ?_⟩
    have regular' := run_regular regular (before ++ [first])
    rw [run_past] at calling
    have reads : job₀.reads = true := by
      cases job₀ with
      | stop | heartbeat | ask => cases fills
      | loadConfig =>
        -- such a load would be at the configuration all along
        obtain ⟨_, _, task, kept⟩ := run_keepsJob regular' after begun
        cases task.symm.trans calling.task
        cases kept
        obtain ⟨scope, stage⟩ := (reading rfl).config rfl
        rcases complete.stage with eq | ⟨_, _, _, _, eq⟩ <;> cases stage.symm.trans eq
      | _ => rfl
    obtain ⟨_, _, task, _, cycling⟩ := run_atWork regular' (firstStage_opening _ reads) begun reads
      after fun seen prefixed => c.run_past before seen first ▸ goes seen prefixed
    cases task.symm.trans calling.task
    have estimates := ((c.run (before ++ [first])).run after).estimates
    exact (cycling.answered calling rfl choice leader v estimates).gathered complete

/-- A load of data that was asked for ends well only with the last of its answers. -/
theorem completes_of_loaded (orderly : Orderly c) (reading : Reading .loadData w)
    (task : c.task? t = some ⟨.loadData, .working w⟩) {payload : Payload}
    (done : (c.step e).task? t = some ⟨.loadData, .done (.ok payload)⟩) :
    ∃ spaces hosts, Completes c t spaces hosts e := by
  have own : t = c.subject e := by
    by_contra other
    rcases step_stays orderly e task other with same | ⟨_, eq, _⟩
    · cases same.symm.trans done
    · cases eq
  subst own
  have move := c.step_move e
  generalize c.step e = d at move done
  cases move with
  | nothing => cases task.symm.trans done
  | begins _ => cases (orderly.fresh _ (Nat.le_refl _)).symm.trans task
  | calls dialling =>
    cases dialling with
    | made _ _ _ _ _ => cases ((Client.task?_stand ..).trans (if_pos rfl)).symm.trans done
  | wakes dialling =>
    cases dialling with
    | made _ _ _ _ _ => cases ((Client.task?_stand ..).trans (if_pos rfl)).symm.trans done
  | resumes resuming => exact absurd task resuming.not_working
  | @answers _ _ choice _ _ _ _ _ calling answering =>
    cases task.symm.trans calling.task
    cases answering with
    | again _ _ _ | pauses _ _ _ | advances _ _ _ _ _ =>
      cases ((Client.task?_stand ..).trans (if_pos rfl)).symm.trans done
    | fails _ fault ending _ =>
      obtain ⟨fatal, rfl⟩ := ending.of_load rfl
      cases ((Client.task?_finish ..).trans (if_pos rfl)).symm.trans done
    | ends estimates leader v advancing _ _ =>
      obtain ⟨spaces, hosts, complete⟩ := complete_of_ended advancing (reading.data rfl)
      exact ⟨spaces, hosts, .intro choice leader calling complete⟩

/-- A load of data that succeeds has all of its answers, and one that has them, be it asked for or
part of a probe or of a refresh, settles the leader of every partition. That is the last host of
the list it was told that is online and claims the partition, which it holds in the new catalog;
requests for the partition then go to it. With no such host nothing is known of a space that is
gone, and of all else what was believed just before. -/
theorem leaders_seeded (regular : Regular c) (idle : ¬ c.Busy t) (events : List Event) (e : Event) :
    (∀ w payload, (c.run events).task? t = some ⟨.loadData, .working w⟩ →
      ((c.run events).step e).task? t = some ⟨.loadData, .done (.ok payload)⟩ →
        ∃ spaces hosts, (c.run events).Completes t spaces hosts e) ∧
    ∀ spaces hosts, (c.run events).Completes t spaces hosts e →
      ToldAtWork c t events e spaces hosts ∧
        ∀ leaders, Reseeded ((c.run events).believing leaders)
          (((c.run events).believing leaders).step e) spaces hosts := by
  have regular' := run_regular regular events
  refine ⟨fun w payload task done => ?_, fun spaces hosts completes => ⟨?_, fun leaders => ?_⟩⟩
  · have entered := run_entered regular idle events ⟨_, w, task, rfl⟩
    have reading := reading_of_entered regular entered rfl task
    exact completes_of_loaded regular'.toOrderly reading task done
  · exact completes.told regular idle
  · exact (completes.believing leaders).reseeded

namespace Sample

/-- Both hosts claim the first partition, the second one also a partition that only it holds, and
the first one is listed once more as offline. -/
def claiming : List HostItem :=
  [⟨⟨"a", 1⟩, .online, .ofList [(7, [1, 2]), (8, [1])]⟩, ⟨⟨"b", 1⟩, .online, .ofList [(7, [2, 1])]⟩,
    ⟨⟨"a", 1⟩, .offline, .ofList [(7, [1])]⟩]

def nba : SpaceData :=
  ⟨⟨"nba", 2, 1, .int64, 8⟩, .ofList [(1, [⟨"a", 1⟩, ⟨"b", 1⟩]), (2, [⟨"b", 1⟩])], [], [], [], []⟩

/-- A load of data has asked for the last thing that it needs. -/
def reading : List Event :=
  .invoke .loadData :: heard .spaces [⟨7, "nba"⟩] ++ heard .hosts claiming ++
    heard .desc nba.desc ++ heard .parts nba.parts ++ heard .tags [] ++ heard .edges [] ++
    heard .tagIndexes [] ++ [.call 0 .edgeIndexes]

def lastAnswer : Event := .answer 0 .edgeIndexes 0 (.ok (.ok []))

end Sample

theorem leaders_seeded_in_sample : ∃ c d,
    create Sample.storage "cluster.id" true 0 .empty = .ok c ∧
    (c.run Sample.reading).Completes 0 [.build 7 Sample.nba] Sample.claiming Sample.lastAnswer ∧
    d = ((c.run Sample.reading).believing (.ofList [((7, 1), ⟨"a", 1⟩)])).step Sample.lastAnswer ∧
    d.estimates.leaders.get? (7, 1) = some ⟨"b", 1⟩ ∧ ∃ p,
      d.directory.catalog.partHosts 7 1 = .ok p ∧
        Leaders.resolve d.estimates.leaders p = .ok ⟨"b", 1⟩ := by
  obtain ⟨new, created⟩ : ∃ c, create Sample.storage "cluster.id" true 0 .empty = .ok c := ⟨_, rfl⟩
  have idle : ¬ new.Busy 0 := by
    rintro ⟨job, w, task, _⟩
    cases ((create_pristine created).tasks 0).symm.trans task
  have completes : (new.run Sample.reading).Completes 0 [.build 7 Sample.nba] Sample.claiming
      Sample.lastAnswer := by
    cases created
    refine .intro 0 none ⟨rfl, rfl⟩ ?_
    change Complete _ ([] ++ [.build 7 Sample.nba]) _
    exact .last rfl rfl rfl rfl rfl rfl rfl
  obtain ⟨_, seeded⟩ := (leaders_seeded (create_regular created) idle Sample.reading
    Sample.lastAnswer).2 _ _ completes
  have claims : (⟨⟨"b", 1⟩, .online, .ofList [(7, [2, 1])]⟩ : HostItem).Claims
      (.ofList [.build 7 Sample.nba]) 7 1 :=
    ⟨rfl, ⟨[2, 1], rfl, by simp⟩, ⟨⟨7, 1, [⟨"a", 1⟩, ⟨"b", 1⟩]⟩, by rfl, by simp⟩⟩
  let earlier := Sample.claiming.take 1
  let later := Sample.claiming.drop 2
  have last : ∀ other ∈ later, ¬ other.Claims (.ofList [.build 7 Sample.nba]) 7 1 := by
    intro other listed claims
    cases List.mem_singleton.mp listed
    cases claims.online
  obtain ⟨_, leaders, _, resolved⟩ := seeded (.ofList [((7, 1), ⟨"a", 1⟩)])
  exact ⟨new, _, created, completes, rfl, leaders.claimed 7 1 earlier _ later rfl claims last,
    resolved 7 1 earlier _ later rfl claims last⟩

end Client

end ClusterClient
