import ClusterClient.Proofs.Freshness.World
import ClusterClient.Proofs.Client.Frame
/-!
What a task knows of the data of the meta service while it loads them. All that it has
been told was in force at a time that is not before a certain one, which for a cycle is
the one that its heartbeat told. So if no change has come since that time, all of it is
still in force.
-/
namespace ClusterClient

/-- The value was the answer to a call at a time that is not before `low`. -/
def Store.Gave (server : Store) (low : Int) (request : Request) (q : Query) (v : q.Value) : Prop :=
  ∃ then_ : Store, low ≤ then_.time.toInt ∧ (then_.time < server.time ∨ then_ = server) ∧
    then_.Answers request q v

namespace Store

variable {server next : Store} {low : Int} {request : Request} {q : Query} {v : q.Value}

theorem Gave.later (h : server.Gave low request q v) (later : server.time < next.time) :
    next.Gave low request q v := by
  obtain ⟨old, bound, past, answers⟩ := h
  refine ⟨old, bound, .inl ?_, answers⟩
  rcases past with past | rfl
  · exact Int64.lt_trans past later
  · exact later

theorem gave_of_answers (bound : low ≤ server.time.toInt) (h : server.Answers request q v) :
    server.Gave low request q v :=
  ⟨server, bound, .inr rfl, h⟩

/-- Without a change since `low`, the answer is what it would be now. -/
theorem Gave.answers (h : server.Gave low request q v) (still : low = server.time.toInt) :
    server.Answers request q v := by
  obtain ⟨old, bound, past, answers⟩ := h
  rcases past with past | rfl
  · have := Int64.lt_iff_toInt_lt.mp past
    omega
  · exact answers

/-- A heartbeat tells no time that is still to come. -/
theorem Gave.heartbeat_le {hb : Heartbeat} (h : server.Gave low request .heartbeat hb) :
    low ≤ hb.lastUpdate.toInt ∧ hb.lastUpdate.toInt ≤ server.time.toInt := by
  obtain ⟨old, bound, past, answers⟩ := h
  have told : hb.lastUpdate = old.time := answers
  rw [told]
  refine ⟨bound, ?_⟩
  rcases past with past | rfl
  · exact Int.le_of_lt (Int64.lt_iff_toInt_lt.mp past)
  · exact Int.le_refl _

/-- A load that is through with the listed spaces has built all of them. -/
theorem all_spaces (server : Store) {built : List Space}
    (h : ∃ before, server.names.map SpaceName.id = before ++ [] ∧ built = server.spaces before) :
    built = server.spaces (server.names.map SpaceName.id) := by
  obtain ⟨before, all, spaces⟩ := h
  rw [all, List.append_nil]
  exact spaces

theorem spaces_append (before : List SpaceId) {id : SpaceId} {data : SpaceData}
    (h : server.data id = some data) :
    server.spaces (before ++ [id]) = server.spaces before ++ [Space.build id data] := by
  simp [spaces, h]

end Store

namespace Client

variable {c d : Client} {t : TaskId} {job : Job} {w : Work} {server : Store} {low : Int}
  {coming : List Coming}

/-- The stages that a job goes through. A start only reads what a heartbeat told it to. -/
structure Fits (job : Job) (w : Work) : Prop extends Suits job w where
  cycle : job.cycles = true → ∀ q r, w.stage ≠ .ask q r
  start : ∀ n, job = .start n → (∃ r, w.stage = .beat r) ∨ ∃ time, w.remote = some time

/-- What a cycle at work knows, and will be told. -/
structure Grounded (server : Store) (coming : List Coming) (c : Client) (t : TaskId) (w : Work)
    (low : Int) : Prop where
  past : low ≤ server.time.toInt
  remote : ∀ time, w.remote = some time → low = time.toInt
  running : c.phase = .running → c.watermark.toInt ≤ low
  heard : ∀ q v, w.slots q = .done v → server.Gave low (w.stage.request q) q v
  awaited : ∀ q s v, w.slots q = .calling s → ⟨t, q, v⟩ ∈ coming →
    server.Gave low (w.stage.request q) q v
  built : ∀ id rest built hosts, w.stage = .space id rest built hosts →
    low = server.time.toInt → ∃ before,
      server.names.map SpaceName.id = before ++ id :: rest ∧ built = server.spaces before
  loaded : ∀ scope, w.stage = .configs scope → scope = c.options.role.configModule ∧
    (low = server.time.toInt → c.directory.catalog = server.catalog)

/-- The watermark is never ahead of the meta service, and where it is not behind either,
the caches are what the meta service has. -/
structure Synced (server : Store) (c : Client) : Prop where
  watermark : c.watermark.toInt ≤ server.time.toInt
  directory : c.watermark.toInt = server.time.toInt →
    c.directory = server.directory c.options.role.configModule

/-- What holds of a client for which a cycle is at work or has just ended. -/
structure Abreast (server : Store) (coming : List Coming) (c : Client) (t : TaskId) (job : Job)
    (progress : Progress) : Prop where
  synced : c.phase = .running → Synced server c
  more : ∀ w, progress = .more w → Fits job w ∧ ∃ low, Grounded server coming c t w low
  started : ∀ n payload, job = .start n → progress = .ended (.ok payload) → Synced server c

theorem Grounded.fewer (h : Grounded server coming c t w low) {left : List Coming}
    (fewer : ∀ r ∈ left, r ∈ coming) : Grounded server left c t w low :=
  { h with awaited := fun q s v calling here => h.awaited q s v calling (fewer _ here) }

/-- After a change nothing needs to be in force any more. -/
theorem Grounded.later (h : Grounded server coming c t w low) {next : Store}
    (later : server.time < next.time) : Grounded next coming c t w low where
  past := Int.le_trans h.past (Int.le_of_lt (Int64.lt_iff_toInt_lt.mp later))
  remote := h.remote
  running := h.running
  heard q v done := (h.heard q v done).later later
  awaited q s v calling here := (h.awaited q s v calling here).later later
  built id rest built hosts stage still := by
    have := h.past
    have := Int64.lt_iff_toInt_lt.mp later
    omega
  loaded scope stage := by
    refine ⟨(h.loaded scope stage).1, fun still => ?_⟩
    have := h.past
    have := Int64.lt_iff_toInt_lt.mp later
    omega

theorem Synced.later (h : Synced server c) {next : Store} (later : server.time < next.time) :
    Synced next c := by
  have past := h.watermark
  have := Int64.lt_iff_toInt_lt.mp later
  exact ⟨by omega, fun caught => by omega⟩

theorem Grounded.steady (h : Grounded server coming c t w low) (steady : Steady c d)
    (options : d.options = c.options) : Grounded server coming d t w low :=
  { h with
    running := fun running => steady.watermark ▸ h.running (steady.running running)
    loaded := by
      rw [options, steady.directory]
      exact h.loaded }

theorem Synced.quiet (h : Synced server c) (quiet : Quiet c d) (options : d.options = c.options) :
    Synced server d := by
  constructor
  · rw [quiet.watermark]
    exact h.watermark
  · rw [quiet.watermark, quiet.directory, options]
    exact h.directory

theorem slots_set_self (slots : Slots) (q : Query) (slot : Slot q.Value) :
    slots.set q slot q = slot := by
  simp [Slots.set]

theorem slots_set_of_ne (slots : Slots) {q q' : Query} (slot : Slot q.Value) (ne : q' ≠ q) :
    slots.set q slot q' = slots q' := by
  simp [Slots.set, ne]

theorem Fits.slots (h : Fits job w) (slots : Slots) : Fits job { w with slots } :=
  ⟨h.toSuits.slots slots, h.cycle, h.start⟩

/-- A call is made: its answer is not under way yet. -/
theorem Grounded.asks (h : Grounded server coming c t w low) {q : Query} {slot : Slot q.Value}
    (open_ : ∀ v, slot ≠ .done v) (none : ∀ v, ⟨t, q, v⟩ ∉ coming) :
    Grounded server coming c t { w with slots := w.slots.set q slot } low :=
  { h with
    heard := fun q' v done => by
      have done : w.slots.set q slot q' = .done v := done
      by_cases eq : q' = q
      · subst eq
        rw [slots_set_self] at done
        exact absurd done (open_ v)
      · rw [slots_set_of_ne _ _ eq] at done
        exact h.heard q' v done
    awaited := fun q' s v calling here => by
      have calling : w.slots.set q slot q' = .calling s := calling
      by_cases eq : q' = q
      · subst eq
        exact absurd here (none v)
      · rw [slots_set_of_ne _ _ eq] at calling
        exact h.awaited q' s v calling here }

/-- An answer has come. -/
theorem Grounded.hears (h : Grounded server coming c t w low) {q : Query} {v : q.Value}
    (gave : server.Gave low (w.stage.request q) q v) :
    Grounded server coming c t { w with slots := w.slots.set q (.done v) } low :=
  { h with
    heard := fun q' v' done => by
      have done : w.slots.set q (.done v) q' = .done v' := done
      by_cases eq : q' = q
      · subst eq
        rw [slots_set_self] at done
        cases done
        exact gave
      · rw [slots_set_of_ne _ _ eq] at done
        exact h.heard q' v' done
    awaited := fun q' s v' calling here => by
      have calling : w.slots.set q (.done v) q' = .calling s := calling
      by_cases eq : q' = q
      · subst eq
        rw [slots_set_self] at calling
        cases calling
      · rw [slots_set_of_ne _ _ eq] at calling
        exact h.awaited q' s v' calling here }

theorem fits_begin (worker : ∀ clear, job ≠ .stop clear) (cycles : job.cycles = true)
    {remote : Option Int64} {stage : Stage} (apart : ∀ q r, stage ≠ .ask q r)
    (start : ∀ n, job = .start n → (∃ r, stage = .beat r) ∨ ∃ time, remote = some time) :
    Fits job (.begin remote stage) where
  toSuits := suits_begin worker cycles remote stage
  cycle _ := apart
  start := start

/-- A group of calls begins with nothing heard. -/
theorem grounded_begin {remote : Option Int64} {stage : Stage} (past : low ≤ server.time.toInt)
    (told : ∀ time, remote = some time → low = time.toInt)
    (running : c.phase = .running → c.watermark.toInt ≤ low)
    (built : ∀ id rest built hosts, stage = .space id rest built hosts →
      low = server.time.toInt → ∃ before,
        server.names.map SpaceName.id = before ++ id :: rest ∧ built = server.spaces before)
    (loaded : ∀ scope, stage = .configs scope → scope = c.options.role.configModule ∧
      (low = server.time.toInt → c.directory.catalog = server.catalog)) :
    Grounded server coming c t (.begin remote stage) low :=
  ⟨past, told, running, (fun _ _ heard => by cases heard), (fun _ _ _ calling => by cases calling),
    built, loaded⟩

/-- All spaces are built, so the catalog takes the place of the one before. -/
theorem Grounded.synced_install (h : Grounded server coming c t w low)
    (synced : c.phase = .running → Synced server c) (hosts : List HostItem) {built : List Space}
    (known : low = server.time.toInt → built = server.spaces (server.names.map SpaceName.id))
    (running : c.phase = .running) : Synced server (c.install (.ofList built) hosts) := by
  obtain ⟨estimates, installed⟩ := c.install_eq (.ofList built) hosts
  have before := synced running
  have bound := h.running running
  have past := h.past
  rw [installed]
  refine ⟨before.watermark, fun caught => ?_⟩
  have caught : c.watermark.toInt = server.time.toInt := caught
  have still : low = server.time.toInt := by omega
  have configs := congrArg Directory.configs (before.directory caught)
  simp only at configs ⊢
  rw [configs, known still]
  rfl

theorem Built.abreast {hosts : List HostItem} {built : List Space} {ids : List SpaceId}
    {progress : Progress} (h : Built c job w hosts built ids d progress)
    (fits : Fits job w) (cycles : job.cycles = true) (grounded : Grounded server coming c t w low)
    (armed : ∀ n, job = .start n → ∃ time, w.remote = some time)
    (known : low = server.time.toInt → ∃ before,
      server.names.map SpaceName.id = before ++ ids ∧ built = server.spaces before)
    (synced : c.phase = .running → Synced server c) (loads : c.options.skipConfig = false) :
    Abreast server coming d t job progress := by
  cases h with
  | next id rest =>
    refine ⟨synced, ?_, fun _ _ _ eq => by cases eq⟩
    rintro w' ⟨⟩
    refine ⟨fits_begin fits.worker cycles (by simp) fun n eq => .inr (armed n eq), low,
      grounded_begin grounded.past grounded.remote grounded.running ?_ (by simp)⟩
    rintro _ _ _ _ ⟨⟩ still
    exact known still
  | data load =>
    refine ⟨fun running => ?_, (fun _ eq => by cases eq), (fun n _ eq => by
      rw [load] at eq
      cases eq)⟩
    have like := c.install_alike (.ofList built) hosts
    exact grounded.synced_install synced hosts (fun still => server.all_spaces (known still))
      (like.phase ▸ running)
  | bare _ skips =>
    rw [loads] at skips
    cases skips
  | configs _ _ =>
    have complete : low = server.time.toInt →
        built = server.spaces (server.names.map SpaceName.id) := fun still =>
      server.all_spaces (known still)
    have like := c.install_alike (.ofList built) hosts
    obtain ⟨estimates, installed⟩ := c.install_eq (.ofList built) hosts
    refine ⟨fun running => ?_, ?_, fun _ _ _ eq => by cases eq⟩
    · exact grounded.synced_install synced hosts complete (like.phase ▸ running)
    · rintro w' ⟨⟩
      refine ⟨fits_begin fits.worker cycles (by simp) fun n eq => .inr (armed n eq), low,
        grounded_begin grounded.past grounded.remote ?_ (by simp) ?_⟩
      · rw [installed]
        exact grounded.running
      · rintro scope ⟨⟩
        rw [installed]
        refine ⟨rfl, fun still => ?_⟩
        rw [Store.catalog, ← complete still]

/-- The answers about one space that are all still in force make up its data. -/
theorem Grounded.data_eq (h : Grounded server coming c t w low) (still : low = server.time.toInt)
    {id : SpaceId} {rest : List SpaceId} {built : List Space} {hosts : List HostItem}
    (stage : w.stage = .space id rest built hosts) {data : SpaceData}
    (desc : w.slots .desc = .done data.desc) (parts : w.slots .parts = .done data.parts)
    (tags : w.slots .tags = .done data.tags) (edges : w.slots .edges = .done data.edges)
    (tagIndexes : w.slots .tagIndexes = .done data.tagIndexes)
    (edgeIndexes : w.slots .edgeIndexes = .done data.edgeIndexes) :
    server.data id = some data := by
  have asked : ∀ q, w.stage.request q = .ofSpace q id := fun q => by
    rw [stage]
    rfl
  obtain ⟨_, found, request, here, desc⟩ := (h.heard _ _ desc).answers still
  cases (asked .desc).symm.trans request
  -- the other five answers are about the data that the description was found in
  have same : ∀ {q other other_data}, w.stage.request q = .ofSpace q other →
      server.data other = some other_data → other_data = found := by
    intro q other other_data request there
    cases (asked q).symm.trans request
    exact Option.some.inj (there.symm.trans here)
  obtain ⟨_, _, request, there, parts⟩ := (h.heard _ _ parts).answers still
  cases same request there
  obtain ⟨_, _, request, there, tags⟩ := (h.heard _ _ tags).answers still
  cases same request there
  obtain ⟨_, _, request, there, edges⟩ := (h.heard _ _ edges).answers still
  cases same request there
  obtain ⟨_, _, request, there, tagIndexes⟩ := (h.heard _ _ tagIndexes).answers still
  cases same request there
  obtain ⟨_, _, request, there, edgeIndexes⟩ := (h.heard _ _ edgeIndexes).answers still
  cases same request there
  rw [here]
  cases data
  cases found
  simp only at desc parts tags edges tagIndexes edgeIndexes
  subst desc parts tags edges tagIndexes edgeIndexes
  rfl

/-- A cycle that goes on after its heartbeat reads what is in force from then on. -/
theorem Beaten.abreast {hb : Heartbeat} {progress : Progress} (h : Beaten c hb job progress)
    (worker : ∀ clear, job ≠ .stop clear) (cycles : job.cycles = true)
    (past : hb.lastUpdate.toInt ≤ server.time.toInt)
    (probing : ∀ n, job = .start n → c.phase ≠ .running)
    (synced : c.phase = .running → Synced server c) (clusterId : ClusterId) (disk : FileTree) :
    Abreast server coming { c with clusterId, disk } t job progress := by
  have begins : (c.phase = .running → c.watermark.toInt ≤ hb.lastUpdate.toInt) →
      Grounded server coming { c with clusterId, disk } t (.begin (some hb.lastUpdate) .listing)
        hb.lastUpdate.toInt := by
    intro bound
    refine grounded_begin past ?_ bound (by simp) (by simp)
    rintro time ⟨⟩
    rfl
  have fitting : Fits job (.begin (some hb.lastUpdate) .listing) :=
    fits_begin worker cycles (by simp) fun _ _ => .inr ⟨_, rfl⟩
  refine ⟨fun running => ⟨(synced running).watermark, (synced running).directory⟩, ?_, ?_⟩
  · rintro w' rfl
    cases h with
    | started n => exact ⟨fitting, _, begins fun running => absurd running (probing n rfl)⟩
    | later _ later =>
      rw [Int64.le_iff_toInt_le] at later
      exact ⟨fitting, _, begins fun _ => by omega⟩
  · rintro n payload rfl rfl
    cases h with
    | ended not_start _ => exact absurd rfl (not_start n)

/-- The configs are the last to be read, so a watermark up to `low` is right after them. -/
theorem Grounded.synced_configure (h : Grounded server coming c t w low) {scope : ConfigModule}
    (stage : w.stage = .configs scope) {items : List ConfigItem}
    (heard : w.slots .configs = .done items) {time : Int64} (bound : time.toInt ≤ low) :
    Synced server { c.configure items with watermark := time } := by
  obtain ⟨rfl, current⟩ := h.loaded scope stage
  obtain ⟨news, _, configured⟩ := c.configure_eq items
  have past := h.past
  have bound' : time.toInt ≤ server.time.toInt := by omega
  refine ⟨bound', fun caught => ?_⟩
  have caught : time.toInt = server.time.toInt := caught
  have still : low = server.time.toInt := by omega
  obtain ⟨scope, request, told⟩ := (h.heard _ _ heard).answers still
  rw [stage] at request
  cases request
  rw [configured]
  simp only [Store.directory, current still, told]

theorem Advancing.abreast {progress : Progress} (h : Advancing c job w d progress)
    (fits : Fits job w) (cycles : job.cycles = true) (grounded : Grounded server coming c t w low)
    (probing : ∀ n, job = .start n → c.phase ≠ .running)
    (synced : c.phase = .running → Synced server c) (loads : c.options.skipConfig = false) :
    Abreast server coming d t job progress := by
  have armed : (∀ r, w.stage ≠ .beat r) → ∀ n, job = .start n → ∃ time, w.remote = some time := by
    intro late n eq
    rcases fits.start n eq with ⟨r, beat⟩ | told
    · exact absurd beat (late r)
    · exact told
  cases h with
  | waits =>
    refine ⟨synced, ?_, fun _ _ _ eq => by cases eq⟩
    rintro w' ⟨⟩
    exact ⟨fits, low, grounded⟩
  | beats r stage hb heard clusterId disk beaten =>
    have told := (grounded.heard _ _ heard).heartbeat_le
    exact beaten.abreast fits.worker cycles told.2 probing synced clusterId disk
  | lists stage spaces hosts heard built =>
    refine built.abreast fits cycles grounded (armed (by simp [stage])) (fun still => ?_) synced
      loads
    have all : spaces = server.names := (grounded.heard _ _ heard).answers still
    exact ⟨[], by rw [all, List.nil_append], rfl⟩
  | builds id rest before hosts stage data desc parts tags edges tagIndexes edgeIndexes built =>
    refine built.abreast fits cycles grounded (armed (by simp [stage])) (fun still => ?_) synced
      loads
    obtain ⟨done, all, spaces⟩ := grounded.built _ _ _ _ stage still
    have here := grounded.data_eq still stage desc parts tags edges tagIndexes edgeIndexes
    refine ⟨done ++ [id], ?_, ?_⟩
    · rw [all, List.append_assoc]
      rfl
    · rw [Store.spaces_append done here, spaces]
  | configures scope stage items heard =>
    refine ⟨fun running => grounded.synced_configure stage heard ?_, (fun _ eq => by cases eq),
      fun n _ eq _ => grounded.synced_configure stage heard ?_⟩
    · cases told : w.remote with
      | none =>
        obtain ⟨_, _, configured⟩ := c.configure_eq items
        rw [configured] at running
        exact grounded.running running
      | some time => exact Int.le_of_eq (grounded.remote time told).symm
    · obtain ⟨time, told⟩ := armed (by simp [stage]) n eq
      rw [told, grounded.remote time told]
      exact Int.le_refl _
  | asked q request stage result => exact absurd stage (fits.cycle cycles q request)

end Client

end ClusterClient
