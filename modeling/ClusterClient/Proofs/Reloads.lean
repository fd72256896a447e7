import ClusterClient.Proofs.Listening
import ClusterClient.Proofs.Loads
import Mathlib.Data.List.Forall2
import Mathlib.Data.List.Induction
import Mathlib.Data.List.Infix
/-!
A probe or a refresh whose reload fails. It has replaced the whole catalog with the one it has
put together from the answers to its own calls, and told the listener the difference, if it
was already at the configuration; and it has changed nothing if it was not.
-/
namespace ClusterClient

/-- The job reads all data of the meta service again, and its configuration after that. -/
def Job.reloads : Job → Bool
  | .start _ | .refresh | .background _ => true
  | _ => false

/-- The job reads all data of the meta service. -/
def Job.reads : Job → Bool
  | .start _ | .refresh | .background _ | .loadData => true
  | _ => false

theorem Job.fills_of_reads {job : Job} (h : job.reads = true) : job.fills = true := by
  cases job with
  | start | refresh | background | loadData => rfl
  | _ => cases h

theorem Job.reads_of_reloads {job : Job} (h : job.reloads = true) : job.reads = true := by
  cases job with
  | start | refresh | background => rfl
  | _ => cases h

/-- A cycle opens with its heartbeat, or else as a load does. -/
def Stage.Opening (stage : Stage) : Prop := stage = .listing ∨ ∃ r, stage = .beat r

namespace Client

variable {c₀ c d : Client} {t : TaskId} {job : Job} {w : Work} {q : Query} {events : List Event}

/-- In a run the task was told that in answer to its request. -/
def Heard (c₀ : Client) (t : TaskId) (events : List Event) (request : Request) (q : Query)
    (v : q.Value) : Prop :=
  ∃ before choice leader after,
    events = before ++ .answer t q choice (.ok ⟨.succeeded, leader, v⟩) :: after ∧
      (c₀.run before).asks t q = some request

/-- The space is made of what the task was told about it. -/
def SpaceHeard (c₀ : Client) (t : TaskId) (events : List Event) (id : SpaceId) (space : Space) :
    Prop :=
  ∃ data : SpaceData, space = .build id data ∧
    Heard c₀ t events (.ofSpace .desc id) .desc data.desc ∧
    Heard c₀ t events (.ofSpace .parts id) .parts data.parts ∧
    Heard c₀ t events (.ofSpace .tags id) .tags data.tags ∧
    Heard c₀ t events (.ofSpace .edges id) .edges data.edges ∧
    Heard c₀ t events (.ofSpace .tagIndexes id) .tagIndexes data.tagIndexes ∧
    Heard c₀ t events (.ofSpace .edgeIndexes id) .edgeIndexes data.edgeIndexes

/-- The catalog has all the spaces that the task was told of. -/
def CatalogHeard (c₀ : Client) (t : TaskId) (events : List Event) (catalog : Catalog) : Prop :=
  ∃ names spaces, Heard c₀ t events .spaces .spaces names ∧
    List.Forall₂ (SpaceHeard c₀ t events) (names.map SpaceName.id) spaces ∧
    catalog = .ofList spaces

/-- These spaces are read, out of those that the task was told of, and the rest are still to be
asked for. The hosts are those that it was told of. -/
structure Gathered (c₀ : Client) (t : TaskId) (events : List Event) (spaces : List Space)
    (rest : List SpaceId) (hosts : List HostItem) : Prop where
  spaces : ∃ names done, Heard c₀ t events .spaces .spaces names ∧
    names.map SpaceName.id = done ++ rest ∧ List.Forall₂ (SpaceHeard c₀ t events) done spaces
  hosts : Heard c₀ t events .hosts .hosts hosts

theorem Gathered.catalog {spaces : List Space} {hosts : List HostItem}
    (h : Gathered c₀ t events spaces [] hosts) : CatalogHeard c₀ t events (.ofList spaces) := by
  obtain ⟨⟨names, done, heard, all, found⟩, _⟩ := h
  rw [List.append_nil] at all
  exact ⟨names, spaces, heard, all ▸ found, rfl⟩

/-- The catalog has taken the place of the one before, and the listener was told about that. -/
structure Replaced (c d : Client) (catalog : Catalog) : Prop where
  directory : d.directory = { c.directory with catalog }
  notices : d.notices = c.notices ++ c.newsOf catalog

/-- The task makes a beginning with this group of calls. -/
def Opens (c : Client) (t : TaskId) (stage : Stage) : Prop :=
  ∃ job, c.task? t = some ⟨job, .working (.begin none stage)⟩

/-- The time of the last change that a cycle knows is the one that its heartbeat was told, if it
has opened with a heartbeat. -/
inductive Timed (c₀ : Client) (t : TaskId) (events : List Event) : Option Int64 → Stage → Prop
  | beat {r : HeartbeatRequest} (opens : c₀.Opens t (.beat r)) : Timed c₀ t events none (.beat r)
  | told {r : HeartbeatRequest} {hb : Heartbeat} {stage : Stage} (opens : c₀.Opens t (.beat r))
      (heard : Heard c₀ t events (.heartbeat r) .heartbeat hb) (apart : ∀ r, stage ≠ .beat r) :
    Timed c₀ t events (some hb.lastUpdate) stage
  | untold {stage : Stage} (opens : c₀.Opens t .listing) (apart : ∀ r, stage ≠ .beat r) :
    Timed c₀ t events none stage

/-- What holds of a cycle at work some way into it. -/
structure Cycling (c₀ : Client) (t : TaskId) (events : List Event) (c : Client) (w : Work) :
    Prop where
  watermark : c.watermark = c₀.watermark
  apart : ∀ q r, w.stage ≠ .ask q r
  listed : ∀ q, w.slots q ≠ .idle → q ∈ w.stage.queries
  heard : ∀ q v, w.slots q = .done v → Heard c₀ t events (w.stage.request q) q v
  before : (∀ scope, w.stage ≠ .configs scope) →
    c.directory = c₀.directory ∧ c.notices = c₀.notices
  built : ∀ id rest built hosts, w.stage = .space id rest built hosts →
    Gathered c₀ t events built (id :: rest) hosts
  after : ∀ scope, w.stage = .configs scope →
    ∃ catalog, CatalogHeard c₀ t events catalog ∧ Replaced c₀ c catalog
  own : ∀ scope, w.stage = .configs scope → scope = c₀.options.role.configModule
  timed : Timed c₀ t events w.remote w.stage

theorem Heard.later {request : Request} {v : q.Value} (h : Heard c₀ t events request q v)
    (more : List Event) : Heard c₀ t (events ++ more) request q v := by
  obtain ⟨before, choice, leader, after, rfl, asked⟩ := h
  exact ⟨before, choice, leader, after ++ more, by simp, asked⟩

theorem SpaceHeard.later {id : SpaceId} {space : Space} (h : SpaceHeard c₀ t events id space)
    (more : List Event) : SpaceHeard c₀ t (events ++ more) id space := by
  obtain ⟨data, built, desc, parts, tags, edges, tagIndexes, edgeIndexes⟩ := h
  exact ⟨data, built, desc.later more, parts.later more, tags.later more, edges.later more,
    tagIndexes.later more, edgeIndexes.later more⟩

theorem CatalogHeard.later {catalog : Catalog} (h : CatalogHeard c₀ t events catalog)
    (more : List Event) : CatalogHeard c₀ t (events ++ more) catalog := by
  obtain ⟨names, spaces, heard, all, eq⟩ := h
  exact ⟨names, spaces, heard.later more, all.imp fun _ _ h => h.later more, eq⟩

theorem Gathered.later {spaces : List Space} {rest : List SpaceId} {hosts : List HostItem}
    (h : Gathered c₀ t events spaces rest hosts) (more : List Event) :
    Gathered c₀ t (events ++ more) spaces rest hosts := by
  obtain ⟨⟨names, done, heard, split, all⟩, told⟩ := h
  exact ⟨⟨names, done, heard.later more, split, all.imp fun _ _ h => h.later more⟩,
    told.later more⟩

theorem Timed.later {remote : Option Int64} {stage : Stage} (h : Timed c₀ t events remote stage)
    (more : List Event) : Timed c₀ t (events ++ more) remote stage := by
  cases h with
  | beat opens => exact .beat opens
  | told opens heard apart => exact .told opens (heard.later more) apart
  | untold opens apart => exact .untold opens apart

/-- After the heartbeat the time is kept from one group of calls to the next. -/
theorem Timed.next {remote : Option Int64} {stage stage' : Stage}
    (h : Timed c₀ t events remote stage) (apart : ∀ r, stage ≠ .beat r)
    (apart' : ∀ r, stage' ≠ .beat r) : Timed c₀ t events remote stage' := by
  cases h with
  | beat _ => exact absurd rfl (apart _)
  | told opens heard _ => exact .told opens heard apart'
  | untold opens _ => exact .untold opens apart'

/-- Whatever else happens while the caches stay as they are. -/
theorem Cycling.later (h : Cycling c₀ t events c w) (quiet : Quiet c d) (more : List Event) :
    Cycling c₀ t (events ++ more) d w where
  watermark := quiet.watermark.trans h.watermark
  apart := h.apart
  listed := h.listed
  heard q v done := (h.heard q v done).later more
  before early := by
    rw [quiet.directory, quiet.notices]
    exact h.before early
  built id rest built hosts stage := (h.built id rest built hosts stage).later more
  after scope stage := by
    obtain ⟨catalog, heard, replaced⟩ := h.after scope stage
    exact ⟨catalog, heard.later more, quiet.directory.trans replaced.directory,
      quiet.notices.trans replaced.notices⟩
  own := h.own
  timed := h.timed.later more

theorem Cycling.quiet (h : Cycling c₀ t events c w) (quiet : Quiet c d) :
    Cycling c₀ t events d w := by
  have after := h.later quiet []
  rwa [List.append_nil] at after

theorem Cycling.set (h : Cycling c₀ t events c w) {slot : Slot q.Value}
    (listed : q ∈ w.stage.queries)
    (heard : ∀ v, slot = .done v → Heard c₀ t events (w.stage.request q) q v) :
    Cycling c₀ t events c { w with slots := w.slots.set q slot } :=
  { h with
    listed := fun q' here => by
      by_cases eq : q' = q
      · exact eq ▸ listed
      · refine h.listed q' ?_
        rwa [← slots_set_of_ne w.slots slot eq]
    heard := fun q' v done => by
      have done : w.slots.set q slot q' = .done v := done
      by_cases eq : q' = q
      · subst eq
        rw [slots_set_self] at done
        exact heard v done
      · rw [slots_set_of_ne _ _ eq] at done
        exact h.heard q' v done }

/-- A call is made, or there is a pause before it is made again. -/
theorem Cycling.calls (h : Cycling c₀ t events c w) (listed : q ∈ w.stage.queries)
    {slot : Slot q.Value} (waits : ∀ v, slot ≠ .done v) (estimates : Estimates) (job : Job)
    (more : List Event) :
    let e := { c with estimates }.setSlot t job w q slot
    ∃ w', e.task? t = some ⟨job, .working w'⟩ ∧ Cycling c₀ t (events ++ more) e w' := by
  intro e
  have quiet : Quiet c e := ⟨rfl, rfl, rfl⟩
  exact ⟨_, (Client.task?_stand ..).trans (if_pos rfl),
    (h.later quiet more).set listed fun v done => absurd done (waits v)⟩

/-- A group of calls begins before the configuration. -/
theorem cycling_begin {remote : Option Int64} {stage : Stage}
    (quiet : Quiet c₀ c) (apart : ∀ q r, stage ≠ .ask q r) (early : ∀ scope, stage ≠ .configs scope)
    (built : ∀ id rest built hosts, stage = .space id rest built hosts →
      Gathered c₀ t events built (id :: rest) hosts)
    (timed : Timed c₀ t events remote stage) : Cycling c₀ t events c (.begin remote stage) where
  watermark := quiet.watermark
  apart := apart
  listed q some := absurd rfl some
  heard q v done := by cases done
  before _ := ⟨quiet.directory, quiet.notices⟩
  built := built
  after scope stage := absurd stage (early scope)
  own scope stage := absurd stage (early scope)
  timed := timed

theorem newsOf_congr (options : d.options = c.options) (listening : d.listening = c.listening)
    (directory : d.directory = c.directory) (catalog : Catalog) :
    d.newsOf catalog = c.newsOf catalog := by
  rw [newsOf, newsOf, options, listening, directory]

theorem install_replaced (c : Client) (catalog : Catalog) (hosts : List HostItem) :
    Replaced c (c.install catalog hosts) catalog ∧
      (c.install catalog hosts).watermark = c.watermark := by
  obtain ⟨estimates, installed⟩ := c.install_eq catalog hosts
  rw [installed]
  exact ⟨⟨rfl, rfl⟩, rfl⟩

theorem Replaced.after {catalog : Catalog} (h : Replaced c d catalog) (quiet : Quiet c₀ c)
    (later : Later c₀ c) : Replaced c₀ d catalog where
  directory := by rw [h.directory, quiet.directory]
  notices := by
    rw [h.notices, quiet.notices, newsOf_congr later.options later.listening quiet.directory]

/-- A cycle goes on to the next space, or installs what it has built and goes on to the
configuration. -/
theorem Built.cycling {hosts : List HostItem} {spaces : List Space} {ids : List SpaceId}
    {w' : Work} (h : Built c job w hosts spaces ids d (.more w')) (quiet : Quiet c₀ c)
    (later : Later c₀ c) (gathered : Gathered c₀ t events spaces ids hosts)
    (timed : Timed c₀ t events w.remote w.stage) (apart : ∀ r, w.stage ≠ .beat r) :
    Cycling c₀ t events d w' := by
  cases h with
  | next id rest =>
    refine cycling_begin quiet (by simp) (by simp) ?_ (timed.next apart (by simp))
    rintro _ _ _ _ ⟨⟩
    exact gathered
  | configs _ _ =>
    obtain ⟨replaced, watermark⟩ := c.install_replaced (.ofList spaces) hosts
    refine ⟨watermark.trans quiet.watermark, by simp [Work.begin], fun q some => absurd rfl some,
      nofun, fun early => absurd rfl (early _), by simp [Work.begin], fun scope _ => ?_, ?_,
      timed.next apart (by simp [Work.begin])⟩
    · exact ⟨_, gathered.catalog, replaced.after quiet later⟩
    · rintro _ ⟨⟩
      rw [later.options]

theorem Cycling.listed_data (h : Cycling c₀ t events c w) (stage : w.stage = .listing)
    {names : List SpaceName} {hosts : List HostItem} (spaces : w.slots .spaces = .done names)
    (known : w.slots .hosts = .done hosts) :
    Gathered c₀ t events [] (names.map SpaceName.id) hosts := by
  have heard := h.heard
  rw [stage] at heard
  exact ⟨⟨names, [], heard .spaces names spaces, rfl, .nil⟩, heard .hosts hosts known⟩

/-- One more space is read when all six answers about it are there. -/
theorem Cycling.built_data (h : Cycling c₀ t events c w) {id : SpaceId} {rest : List SpaceId}
    {built : List Space} {hosts : List HostItem} (stage : w.stage = .space id rest built hosts)
    {data : SpaceData} (desc : w.slots .desc = .done data.desc)
    (parts : w.slots .parts = .done data.parts) (tags : w.slots .tags = .done data.tags)
    (edges : w.slots .edges = .done data.edges)
    (tagIndexes : w.slots .tagIndexes = .done data.tagIndexes)
    (edgeIndexes : w.slots .edgeIndexes = .done data.edgeIndexes) :
    Gathered c₀ t events (built ++ [.build id data]) rest hosts := by
  obtain ⟨⟨names, done, heard, split, all⟩, known⟩ := h.built _ _ _ _ stage
  have told : SpaceHeard c₀ t events id (.build id data) := by
    have asked : ∀ q, w.stage.request q = .ofSpace q id := fun q => by
      rw [stage]
      rfl
    refine ⟨data, rfl, ?_, ?_, ?_, ?_, ?_, ?_⟩
    · exact asked .desc ▸ h.heard _ _ desc
    · exact asked .parts ▸ h.heard _ _ parts
    · exact asked .tags ▸ h.heard _ _ tags
    · exact asked .edges ▸ h.heard _ _ edges
    · exact asked .tagIndexes ▸ h.heard _ _ tagIndexes
    · exact asked .edgeIndexes ▸ h.heard _ _ edgeIndexes
  refine ⟨⟨names, done ++ [id], heard, ?_, List.rel_append all (.cons told .nil)⟩, known⟩
  rw [split, List.append_assoc]
  rfl

/-- The heartbeat that a cycle has opened with was answered. -/
theorem Cycling.told (h : Cycling c₀ t events c w) {r : HeartbeatRequest} {hb : Heartbeat}
    (stage : w.stage = .beat r) (done : w.slots .heartbeat = .done hb) :
    Timed c₀ t events (some hb.lastUpdate) .listing := by
  have heard := h.heard .heartbeat hb done
  have timed := h.timed
  rw [stage] at heard timed
  generalize w.remote = remote at timed
  cases timed with
  | beat opens => exact .told opens heard (by simp)
  | told _ _ apart => exact absurd rfl (apart r)
  | untold _ apart => exact absurd rfl (apart r)

theorem Advancing.cycling {w' : Work} (h : Advancing c job w d (.more w'))
    (cycling : Cycling c₀ t events c w) (later : Later c₀ c) : Cycling c₀ t events d w' := by
  cases h with
  | waits => exact cycling
  | beats r stage hb done clusterId disk beaten =>
    obtain ⟨directory, notices⟩ := cycling.before (by simp [stage])
    have quiet : Quiet c₀ { c with clusterId, disk } := ⟨directory, notices, cycling.watermark⟩
    have told : Timed c₀ t events (some hb.lastUpdate) .listing := cycling.told stage done
    cases beaten with
    | started n => exact cycling_begin quiet (by simp) (by simp) (by simp) told
    | later _ _ => exact cycling_begin quiet (by simp) (by simp) (by simp) told
  | lists stage names hosts done built known =>
    obtain ⟨directory, notices⟩ := cycling.before (by simp [stage])
    exact built.cycling ⟨directory, notices, cycling.watermark⟩ later
      (cycling.listed_data stage done known) cycling.timed (by simp [stage])
  | builds id rest before hosts stage data desc parts tags edges tagIndexes edgeIndexes built =>
    obtain ⟨directory, notices⟩ := cycling.before (by simp [stage])
    exact built.cycling ⟨directory, notices, cycling.watermark⟩ later
      (cycling.built_data stage desc parts tags edges tagIndexes edgeIndexes) cycling.timed
      (by simp [stage])

theorem Ending.not_busy {result : Except Fault Payload} (h : Ending c t job result d)
    (live : ∀ clear, job ≠ .stop clear) : ¬ d.Busy t :=
  fun ⟨job, w, task, _⟩ => h.not_working live ⟨job, w, task⟩

/-- What calls of a cycle are about. -/
theorem Cycling.stage_of_heartbeat (h : Cycling c₀ t events c w)
    (listed : Query.heartbeat ∈ w.stage.queries) : ∃ r, w.stage = .beat r := by
  have apart := h.apart
  cases stage : w.stage with
  | beat r => exact ⟨r, rfl⟩
  | ask q r => exact absurd stage (apart q r)
  | _ => simp [stage, Stage.queries] at listed

theorem Cycling.configs_iff (h : Cycling c₀ t events c w) (listed : q ∈ w.stage.queries) :
    q = .configs ↔ ∃ scope, w.stage = .configs scope := by
  have apart := h.apart
  cases stage : w.stage with
  | ask q r => exact absurd stage (apart q r)
  | _ =>
    simp only [stage, Stage.queries, List.mem_cons, List.not_mem_nil, or_false] at listed
    constructor
    · rintro rfl
      simp at listed ⊢
    · rintro ⟨scope, eq⟩
      first | exact listed | cases eq

/-- A heartbeat that ends a cycle changes nothing that is cached. -/
theorem Advancing.quiet {result : Except Fault Payload}
    (h : Advancing c job w d (.ended result)) {r : HeartbeatRequest} (stage : w.stage = .beat r) :
    Quiet c d := by
  cases h with
  | beats _ _ _ _ _ _ _ => exact ⟨rfl, rfl, rfl⟩
  | lists other _ _ _ _ => cases stage.symm.trans other
  | builds _ _ _ _ other _ _ _ _ _ _ _ _ => cases stage.symm.trans other
  | configures _ other _ _ => cases stage.symm.trans other
  | asked _ _ other _ => cases stage.symm.trans other

/-- The last call of a cycle has come to nothing, or it was the heartbeat. -/
def Unserved (q : Query) (outcome : Except Fault (MetaReply q.Value)) : Prop :=
  ∀ leader v, outcome = .ok ⟨.succeeded, leader, v⟩ → q = .heartbeat

/-- An answer is told in a run that comes to it. -/
theorem Cycling.answered {s : Sending} (h : Cycling c₀ t events c w)
    (calling : c.Calling t q job w s) (now : c₀.run events = c) (choice : Nat)
    (leader : Option Host) (v : q.Value) (estimates : Estimates) :
    Cycling c₀ t (events ++ [.answer t q choice (.ok ⟨.succeeded, leader, v⟩)])
      { c with estimates } { w with slots := w.slots.set q (.done v) } := by
  have listed : q ∈ w.stage.queries := h.listed q (by simp [calling.slot])
  have quiet : Quiet c { c with estimates } := ⟨rfl, rfl, rfl⟩
  refine (h.later quiet _).set listed ?_
  rintro _ ⟨⟩
  refine ⟨events, choice, leader, [], rfl, ?_⟩
  rw [now]
  simp [asks, calling.task, calling.slot]

theorem Answering.cycling {s : Sending} {outcome : Except Fault (MetaReply q.Value)}
    (h : Answering c t q job w outcome d) (calling : c.Calling t q job w s)
    (live : ∀ clear, job ≠ .stop clear) (cycling : Cycling c₀ t events c w)
    (now : c₀.run events = c) (choice : Nat) :
    (∃ w', d.task? t = some ⟨job, .working w'⟩ ∧
      Cycling c₀ t (events ++ [.answer t q choice outcome]) d w') ∨
    ¬ d.Busy t ∧ (Unserved q outcome → Quiet c d) := by
  have listed : q ∈ w.stage.queries := cycling.listed q (by simp [calling.slot])
  have later : Later c₀ c := now ▸ run_later c₀ events
  cases h with
  | again estimates s' _ =>
    exact .inl (cycling.calls listed (by simp) estimates job _)
  | pauses estimates s' _ =>
    exact .inl (cycling.calls listed (by simp) estimates job _)
  | fails estimates fault ending _ =>
    refine .inr ⟨ending.not_busy live, fun _ => ?_⟩
    have ended := ending.quiet
    exact ⟨ended.directory, ended.notices, ended.watermark⟩
  | advances estimates leader v advancing _ =>
    have answered := cycling.answered calling now choice leader v estimates
    have next := advancing.cycling answered ⟨later.options, later.listening,
      later.stopped⟩
    exact .inl ⟨_, (Client.task?_stand ..).trans (if_pos rfl), next.quiet ⟨rfl, rfl, rfl⟩⟩
  | ends estimates leader v advancing ending _ =>
    refine .inr ⟨ending.not_busy live, fun unserved => ?_⟩
    obtain rfl := unserved leader v rfl
    obtain ⟨r, stage⟩ := cycling.stage_of_heartbeat listed
    have heard := advancing.quiet stage
    have ended := ending.quiet
    exact ⟨ended.directory.trans heard.directory, ended.notices.trans heard.notices,
      ended.watermark.trans heard.watermark⟩

/-- The cycle, or the load of data, is at work in such a state. -/
def AtWork (c₀ : Client) (t : TaskId) (events : List Event) (c : Client) : Prop :=
  ∃ job w, c.task? t = some ⟨job, .working w⟩ ∧ job.reads = true ∧ Cycling c₀ t events c w

theorem Dialling.atWork (h : Dialling c t q d) (task : c.task? t = some ⟨job, .working w⟩)
    (reads : job.reads = true) (cycling : Cycling c₀ t events c w) (more : List Event) :
    AtWork c₀ t (events ++ more) d := by
  cases h with
  | made here estimates s _ asked =>
    cases here.symm.trans task
    have listed : q ∈ w.stage.queries := by
      rcases asked with listed | ⟨interval, s, pausing⟩
      · exact listed
      · exact cycling.listed q (by simp [pausing])
    have waits : ∀ v, (Slot.calling s : Slot q.Value) ≠ .done v := by simp
    obtain ⟨w', task', next⟩ := cycling.calls listed waits estimates job more
    exact ⟨job, w', task', reads, next⟩

/-- A step in which the cycle does not end. What other tasks do meanwhile leaves the caches
alone, since the turn is not theirs. -/
theorem step_atWork (regular : Regular c) (now : c₀.run events = c) (h : AtWork c₀ t events c)
    (e : Event) (goes : (c.step e).Busy t) : AtWork c₀ t (events ++ [e]) (c.step e) := by
  obtain ⟨job, w, task, reads, cycling⟩ := h
  have stays : AtWork c₀ t (events ++ [e]) c :=
    ⟨job, w, task, reads, cycling.later ⟨rfl, rfl, rfl⟩ _⟩
  by_cases own : t = c.subject e
  · subst own
    have move := c.step_move e
    generalize c.step e = d at move goes ⊢
    cases move with
    | nothing => exact stays
    | begins _ => cases (regular.fresh _ (Nat.le_refl _)).symm.trans task
    | calls dialling => exact dialling.atWork task reads cycling _
    | wakes dialling => exact dialling.atWork task reads cycling _
    | resumes resuming => exact absurd task resuming.not_working
    | answers calling answering =>
      cases calling.task.symm.trans task
      have live := (regular.suits _ _ _ task).worker
      rcases answering.cycling calling live cycling now _ with ⟨w', task', next⟩ | ⟨idle, _⟩
      · exact ⟨job, w', task', reads, next⟩
      · exact absurd goes idle
  · have held : c.holder = some t := regular.locked t job w task
      (Job.cycles_of_fills (Job.fills_of_reads reads))
    have quiet : Quiet c (c.step e) := by
      rcases step_turn regular.toOrderly regular.suits e with steady | free | theirs
      · exact steady.toQuiet
      · cases free.symm.trans held
      · exact absurd (Option.some.inj (held.symm.trans theirs)) own
    have next := cycling.later quiet [e]
    rcases step_stays regular.toOrderly e task own with same | ⟨_, _, after⟩
    · exact ⟨job, w, same, reads, next⟩
    · exact ⟨_, w, after, rfl, next⟩

theorem firstStage_opening (c : Client) (reads : job.reads = true) :
    (c.firstStage job).Opening := by
  cases job with
  | start | refresh | background =>
    by_cases tool : c.options.role = .tool
    · exact .inl (if_pos tool)
    · exact .inr ⟨_, if_neg tool⟩
  | loadData => exact .inl rfl
  | _ => cases reads

theorem begun_atWork {stage : Stage} (opening : stage.Opening)
    (task : c₀.task? t = some ⟨job, .working (.begin none stage)⟩) (reads : job.reads = true) :
    AtWork c₀ t [] c₀ := by
  have timed : Timed c₀ t [] none stage := by
    rcases opening with rfl | ⟨r, rfl⟩
    · exact .untold ⟨job, task⟩ (by simp)
    · exact .beat ⟨job, task⟩
  refine ⟨job, _, task, reads, cycling_begin ⟨rfl, rfl, rfl⟩ ?_ ?_ ?_ timed⟩ <;>
    rcases opening with rfl | ⟨r, rfl⟩ <;> simp

theorem run_atWork (regular : Regular c₀) {stage : Stage} (opening : stage.Opening)
    (task : c₀.task? t = some ⟨job, .working (.begin none stage)⟩) (reads : job.reads = true)
    (events : List Event) (goes : ∀ seen, seen <+: events → (c₀.run seen).Busy t) :
    AtWork c₀ t events (c₀.run events) := by
  induction events using List.reverseRecOn with
  | nil => exact begun_atWork opening task reads
  | append_singleton events e ih =>
    have before := ih fun seen prefixed => goes seen (prefixed.trans (List.prefix_append ..))
    rw [run_concat]
    exact step_atWork (run_regular regular events) rfl before e
      (c₀.run_concat events e ▸ goes _ (List.prefix_refl _))

/-- What a cycle leaves when one of its calls has come to nothing. The watermark is what it was.
The directory is what it was too, with nothing told about it, as long as that was not the
call for the configuration; if it was, the directory has another catalog, which the cycle has
put together from the answers to its own calls, and the listener was told what that changes. -/
theorem failed_cycle (regular : Regular c₀)
    (task : c₀.task? t = some ⟨job, .working (.begin none (c₀.firstStage job))⟩)
    (reload : job.reloads = true) (events : List Event)
    (goes : ∀ seen, seen <+: events → (c₀.run seen).Busy t) (choice : Nat)
    (outcome : Except Fault (MetaReply q.Value)) (unserved : Unserved q outcome)
    (moment : d = (c₀.run events).step (.answer t q choice outcome)) (idle : ¬ d.Busy t) :
    d.watermark = c₀.watermark ∧
      (q ≠ .configs → d.directory = c₀.directory ∧ d.notices = c₀.notices) ∧
      (q = .configs → ∃ catalog, CatalogHeard c₀ t events catalog ∧ Replaced c₀ d catalog) := by
  have busy := goes events (List.prefix_refl _)
  have reads := Job.reads_of_reloads reload
  obtain ⟨job', w, at_work, reads', cycling⟩ :=
    run_atWork regular (firstStage_opening c₀ reads) task reads events goes
  have regular' := run_regular regular events
  subst moment
  rcases (c₀.run events).answer_cases t q choice outcome with same | ⟨_, _, s, calling, answering⟩
  · rw [step, same] at idle
    exact absurd busy idle
  cases calling.task.symm.trans at_work
  have live := (regular'.suits _ _ _ at_work).worker
  have listed : q ∈ w.stage.queries := cycling.listed q (by simp [calling.slot])
  rcases answering.cycling calling live cycling rfl choice with ⟨w', next, _⟩ | ⟨_, quiet⟩
  · exact absurd ⟨job', w', next, Job.fills_of_reads reads'⟩ idle
  have last := cycling.quiet (quiet unserved)
  refine ⟨last.watermark, fun early => last.before fun scope stage => ?_, fun late => ?_⟩
  · exact early ((cycling.configs_iff listed).mpr ⟨scope, stage⟩)
  · obtain ⟨scope, stage⟩ := (cycling.configs_iff listed).mp late
    exact last.after scope stage

/-- Loads that fail leave nothing behind. One that was asked for has touched nothing with any of
its steps. After a probe or a refresh the watermark is what it was, and so is the directory, unless
all data had come and only the configuration was missing: then the catalog is another one, put
together from the answers of this cycle, and the listener was told just what that changes. -/
theorem nothing_half_loaded (reached : Reached c) :
    (∀ op events, op = .loadData ∨ op = .loadConfig →
      (c.run (.invoke op :: events)).Failed c.nextTask →
        SparedBy c c.nextTask (.invoke op :: events)) ∧
    ∀ t job events q choice outcome d,
      c.task? t = some ⟨job, .working (.begin none (c.firstStage job))⟩ → job.reloads = true →
      (∀ seen, seen <+: events → (c.run seen).Busy t) → Unserved q outcome →
      d = (c.run events).step (.answer t q choice outcome) → ¬ d.Busy t →
        d.watermark = c.watermark ∧
        (q ≠ .configs → d.directory = c.directory ∧ d.notices = c.notices) ∧
        (q = .configs → ∃ catalog, CatalogHeard c t events catalog ∧ Replaced c d catalog) :=
  ⟨fun _ events load failed => failed_load_spares reached.regular load events failed,
    fun _ _ events _ choice outcome _ task reload goes unserved moment idle =>
      failed_cycle reached.regular task reload events goes choice outcome unserved moment idle⟩

namespace Sample

/-- The list of spaces does not come. -/
def cut : List Event :=
  [.call 0 .spaces, .answer 0 .spaces 0 (.error (.rpcFailed (.reported "down")))]

/-- All data have come, and the configuration is asked for. -/
def read : List Event := heard .heartbeat ⟨0, 5⟩ ++ loading.tail ++ [.call 0 .configs]

end Sample

theorem nothing_half_loaded_in_sample : ∃ new c d,
    create Sample.storage "cluster.id" true 0 .empty = .ok new ∧
    SparedBy new 0 (.invoke .loadData :: Sample.cut) ∧ c = new.step (.invoke .refresh) ∧
    d = (c.run Sample.read).step (.answer 0 .configs 0 (.error (.rpcFailed (.reported "down")))) ∧
    d.watermark = 0 ∧ ∃ catalog, CatalogHeard c 0 Sample.read catalog ∧ Replaced c d catalog := by
  obtain ⟨new, created⟩ : ∃ c, create Sample.storage "cluster.id" true 0 .empty = .ok c := ⟨_, rfl⟩
  have fresh : Reached new := ⟨_, _, _, _, _, new, [], created, rfl⟩
  have refreshing : Reached (new.step (.invoke .refresh)) :=
    ⟨_, _, _, _, _, new, [.invoke .refresh], created, rfl⟩
  have number : new.nextTask = 0 := by
    cases created
    rfl
  have failed : (new.run (.invoke .loadData :: Sample.cut)).Failed 0 := by
    cases created
    exact ⟨_, _, rfl⟩
  have spared := (nothing_half_loaded fresh).1 .loadData Sample.cut (.inl rfl) (number ▸ failed)
  have goes : ∀ seen, seen <+: Sample.read →
      ((new.step (.invoke .refresh)).run seen).Busy 0 := by
    intro seen prefixed
    have all : ∀ seen ∈ Sample.read.inits, ((new.step (.invoke .refresh)).run seen).Busy 0 := by
      cases created
      decide +kernel
    exact all seen ((List.mem_inits ..).mpr prefixed)
  have outcome := (nothing_half_loaded refreshing).2 0 .refresh Sample.read .configs 0
    (.error (.rpcFailed (.reported "down"))) _ (by cases created; rfl) rfl goes nofun rfl
    (by cases created; decide +kernel)
  refine ⟨new, _, _, created, number ▸ spared, rfl, rfl, outcome.1.trans ?_, outcome.2.2 rfl⟩
  cases created
  rfl

end Client

end ClusterClient
