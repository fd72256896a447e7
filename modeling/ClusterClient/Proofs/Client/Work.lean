import ClusterClient.Client.Step
/-!
How the work of a task goes on with the answers it has, and what that does to the
caches.
-/
namespace ClusterClient

namespace Work

/-- Some call of the group was not answered yet. -/
def Open (w : Work) : Prop := ∃ q ∈ w.stage.queries, ∀ v, w.slots q ≠ .done v

theorem open_of_not_all {w : Work}
    (h : ¬ ∀ q ∈ w.stage.queries, ∃ v, w.slots q = .done v) : w.Open :=
  Classical.byContradiction fun none => h fun q listed =>
    Classical.byContradiction fun unanswered =>
      none ⟨q, listed, fun v done => unanswered ⟨v, done⟩⟩

theorem open_begin (remote : Option Int64) (stage : Stage) : (begin remote stage).Open := by
  have idle : ∀ q v, (begin remote stage).slots q ≠ .done v := fun _ _ => nofun
  cases stage <;> exact ⟨_, List.mem_cons_self, idle _⟩

end Work

namespace Client

variable (c : Client)

theorem notify_eq (notices : List Notice) :
    c.notify notices = { c with notices := c.notices ++ if c.listening then notices else [] } := by
  unfold notify
  split <;> simp

/-- What the listener is told when a catalog takes the place of the present one. -/
def newsOf (catalog : Catalog) : List Notice :=
  if c.listening then
    Notice.changes (c.directory.catalog.partsOnHost c.options.localHost)
      (catalog.partsOnHost c.options.localHost)
  else []

theorem install_eq (catalog : Catalog) (hosts : List HostItem) :
    ∃ estimates, c.install catalog hosts = { c with
      directory := { c.directory with catalog }
      estimates
      notices := c.notices ++ c.newsOf catalog } := by
  unfold install
  exact ⟨_, notify_eq _ _⟩

theorem configure_eq (items : List ConfigItem) :
    ∃ news, (∀ n ∈ news, ∃ space options, n = Notice.optionsUpdated space options) ∧
      c.configure items = { c with
        directory := { c.directory with configs := .ofList items }
        notices := c.notices ++ news } := by
  refine ⟨_, ?_, notify_eq _ _⟩
  intro n hn
  split at hn
  · simp only [Notice.optionChanges, List.mem_flatMap] at hn
    obtain ⟨name, _, hn⟩ := hn
    split at hn
    · cases hn
    · split at hn
      · cases hn
      · obtain ⟨space, _, rfl⟩ := List.mem_map.mp hn
        exact ⟨space, _, rfl⟩
  · cases hn

theorem settled_eq (w : Work) :
    c.settled w = ({ c with watermark := w.remote.getD c.watermark }, .ended (.ok .nothing)) := by
  unfold settled
  cases w.remote <;> rfl

theorem adopt_eq (id : ClusterId) :
    ∃ clusterId disk, (c.adopt id).1 = { c with clusterId, disk } := by
  unfold adopt
  split
  · split
    · exact ⟨_, _, rfl⟩
    · exact ⟨_, _, rfl⟩
  · exact ⟨_, _, rfl⟩

/-- What a job does after its heartbeat was answered. -/
inductive Beaten (c : Client) (hb : Heartbeat) : Job → Progress → Prop
  | ended {job : Job} (h : ∀ n, job ≠ .start n) (result : Except Fault Payload) :
    Beaten c hb job (.ended result)
  | failed {job : Job} (fault : Fault) : Beaten c hb job (.ended (.error fault))
  | started (n : Nat) :
    Beaten c hb (.start n) (.more (.begin (some hb.lastUpdate) .listing))
  | later {job : Job} (h : job ≠ .heartbeat) (later : ¬ hb.lastUpdate ≤ c.watermark) :
    Beaten c hb job (.more (.begin (some hb.lastUpdate) .listing))

/-- How a load goes on when some spaces are built and others are still to be asked for. -/
inductive Built (c : Client) (job : Job) (w : Work) (hosts : List HostItem)
    (built : List Space) : List SpaceId → Client → Progress → Prop
  | next (id : SpaceId) (rest : List SpaceId) :
    Built c job w hosts built (id :: rest) c
      (.more (.begin w.remote (.space id rest built hosts)))
  | data (h : job = .loadData) :
    Built c job w hosts built [] (c.install (.ofList built) hosts) (.ended (.ok .nothing))
  | bare (h : job ≠ .loadData) (skips : c.options.skipConfig = true) :
    Built c job w hosts built []
      { c.install (.ofList built) hosts with watermark := w.remote.getD c.watermark }
      (.ended (.ok .nothing))
  | configs (h : job ≠ .loadData) (loads : c.options.skipConfig = false) :
    Built c job w hosts built [] (c.install (.ofList built) hosts)
      (.more (.begin w.remote (.configs c.options.role.configModule)))

/-- How a work goes on with the answers it has. -/
inductive Advancing (c : Client) (job : Job) (w : Work) : Client → Progress → Prop
  | waits (open_ : w.Open) : Advancing c job w c (.more w)
  | beats (r : HeartbeatRequest) (stage : w.stage = .beat r) (hb : Heartbeat)
      (heard : w.slots .heartbeat = .done hb) (clusterId : ClusterId) (disk : FileTree)
      {progress : Progress} (h : Beaten c hb job progress) :
    Advancing c job w { c with clusterId, disk } progress
  | lists (stage : w.stage = .listing) (spaces : List SpaceName) (hosts : List HostItem)
      (heard : w.slots .spaces = .done spaces) {c' : Client} {progress : Progress}
      (h : Built c job w hosts [] (spaces.map SpaceName.id) c' progress)
      (known : w.slots .hosts = .done hosts) : Advancing c job w c' progress
  | builds (id : SpaceId) (rest : List SpaceId) (built : List Space) (hosts : List HostItem)
      (stage : w.stage = .space id rest built hosts) (data : SpaceData)
      (desc : w.slots .desc = .done data.desc) (parts : w.slots .parts = .done data.parts)
      (tags : w.slots .tags = .done data.tags) (edges : w.slots .edges = .done data.edges)
      (tagIndexes : w.slots .tagIndexes = .done data.tagIndexes)
      (edgeIndexes : w.slots .edgeIndexes = .done data.edgeIndexes)
      {c' : Client} {progress : Progress}
      (h : Built c job w hosts (built ++ [Space.build id data]) rest c' progress) :
    Advancing c job w c' progress
  | configures (scope : ConfigModule) (stage : w.stage = .configs scope)
      (items : List ConfigItem) (heard : w.slots .configs = .done items) :
    Advancing c job w { c.configure items with watermark := w.remote.getD c.watermark }
      (.ended (.ok .nothing))
  | asked (q : Query) (request : Request) (stage : w.stage = .ask q request)
      (result : Except Fault Payload) : Advancing c job w c (.ended result)

theorem beaten_beaten (job : Job) (hb : Heartbeat) :
    ∃ clusterId disk, (c.beaten job hb).1 = { c with clusterId, disk } ∧
      Beaten c hb job (c.beaten job hb).2 := by
  obtain ⟨clusterId, disk, adopted⟩ := c.adopt_eq hb.clusterId
  refine ⟨clusterId, disk, ?_⟩
  unfold beaten
  split
  · rename_i c' fault h
    rw [h] at adopted
    exact ⟨adopted, .failed fault⟩
  · rename_i c' h
    rw [h] at adopted
    simp only at adopted
    subst adopted
    split
    · exact ⟨rfl, .ended (by simp) _⟩
    · exact ⟨rfl, .started _⟩
    · rename_i not_beat not_start
      split
      · exact ⟨rfl, .ended not_start _⟩
      · rename_i later
        exact ⟨rfl, .later not_beat later⟩

theorem spaceBuilt_built (job : Job) (w : Work) (hosts : List HostItem) (built : List Space)
    (ids : List SpaceId) :
    Built c job w hosts built ids (c.spaceBuilt job w hosts built ids).1
      (c.spaceBuilt job w hosts built ids).2 := by
  cases ids with
  | cons id rest => exact .next id rest
  | nil =>
    obtain ⟨estimates, installed⟩ := c.install_eq (.ofList built) hosts
    simp only [spaceBuilt, loaded]
    split
    · rename_i h
      exact .data h
    · rename_i h
      split
      · rename_i skips
        rw [settled_eq]
        have kept : (c.install (.ofList built) hosts).watermark = c.watermark := by
          rw [installed]
        have options : (c.install (.ofList built) hosts).options = c.options := by
          rw [installed]
        rw [kept]
        exact .bare h (options ▸ skips)
      · rename_i loads
        have options : (c.install (.ofList built) hosts).options = c.options := by
          rw [installed]
        rw [options] at loads ⊢
        exact .configs h (by simpa using loads)

theorem advance_advancing (job : Job) (w : Work) :
    Advancing c job w (c.advance job w).1 (c.advance job w).2 := by
  unfold advance
  split
  · rename_i r stage
    split
    · rename_i hb heard
      obtain ⟨clusterId, disk, adopted, next⟩ := c.beaten_beaten job hb
      rw [adopted]
      exact .beats r stage hb heard clusterId disk next
    · rename_i missing
      refine .waits (Work.open_of_not_all fun all => ?_)
      simp only [stage, Stage.queries, List.mem_singleton, forall_eq] at all
      exact all.elim missing
  · rename_i stage
    split
    · rename_i spaces hosts heard known
      exact .lists stage spaces hosts heard (c.spaceBuilt_built _ _ _ _ _) known
    · rename_i missing
      refine .waits (Work.open_of_not_all fun all => ?_)
      simp only [stage, Stage.queries, List.forall_mem_cons] at all
      obtain ⟨⟨_, heard⟩, ⟨_, known⟩, _⟩ := all
      exact missing _ _ heard known
  · rename_i id rest built hosts stage
    split
    · rename_i desc parts tags edges tagIndexes edgeIndexes h₁ h₂ h₃ h₄ h₅ h₆
      exact .builds id rest built hosts stage
        { desc, parts, tags, edges, tagIndexes, edgeIndexes } h₁ h₂ h₃ h₄ h₅ h₆
        (c.spaceBuilt_built _ _ _ _ _)
    · rename_i missing
      refine .waits (Work.open_of_not_all fun all => ?_)
      simp only [stage, Stage.queries, List.forall_mem_cons] at all
      obtain ⟨⟨_, h₁⟩, ⟨_, h₂⟩, ⟨_, h₃⟩, ⟨_, h₄⟩, ⟨_, h₅⟩, ⟨_, h₆⟩, _⟩ := all
      exact missing _ _ _ _ _ _ h₁ h₂ h₃ h₄ h₅ h₆
  · rename_i scope stage
    split
    · rename_i items heard
      obtain ⟨news, _, configured⟩ := c.configure_eq items
      have kept : (c.configure items).watermark = c.watermark := by rw [configured]
      rw [settled_eq, kept]
      exact .configures scope stage items heard
    · rename_i missing
      refine .waits (Work.open_of_not_all fun all => ?_)
      simp only [stage, Stage.queries, List.mem_singleton, forall_eq] at all
      exact all.elim missing
  · rename_i q request stage
    split
    · exact .asked q request stage _
    · rename_i missing
      refine .waits (Work.open_of_not_all fun all => ?_)
      simp only [stage, Stage.queries, List.mem_singleton, forall_eq] at all
      exact all.elim missing

/-- The clients differ in no more than what they have cached and have told. -/
structure Alike (c d : Client) : Prop where
  options : d.options = c.options
  listening : d.listening = c.listening
  tasks : d.tasks = c.tasks
  next : d.nextTask = c.nextTask
  holder : d.holder = c.holder
  waiting : d.waiting = c.waiting
  phase : d.phase = c.phase
  stopped : d.stopped = c.stopped
  background : d.background = c.background
  fatal : d.fatal = c.fatal

variable {c} {d : Client} {job : Job} {w : Work} {progress : Progress}

theorem install_alike (catalog : Catalog) (hosts : List HostItem) :
    Alike c (c.install catalog hosts) := by
  obtain ⟨estimates, installed⟩ := c.install_eq catalog hosts
  rw [installed]
  constructor <;> rfl

theorem Built.alike {hosts : List HostItem} {built : List Space} {ids : List SpaceId}
    (h : Built c job w hosts built ids d progress) : Alike c d := by
  have installed := c.install_alike (.ofList built) hosts
  cases h with
  | next id rest => constructor <;> rfl
  | data _ => exact installed
  | bare _ _ =>
    exact ⟨installed.options, installed.listening, installed.tasks, installed.next,
      installed.holder, installed.waiting, installed.phase, installed.stopped,
      installed.background, installed.fatal⟩
  | configs _ _ => exact installed

theorem Advancing.alike (h : Advancing c job w d progress) : Alike c d := by
  cases h with
  | lists _ _ _ _ built => exact built.alike
  | builds _ _ _ _ _ _ _ _ _ _ _ _ built => exact built.alike
  | configures scope _ items _ =>
    obtain ⟨news, _, configured⟩ := c.configure_eq items
    rw [configured]
    constructor <;> rfl
  | _ => constructor <;> rfl

end Client

end ClusterClient
