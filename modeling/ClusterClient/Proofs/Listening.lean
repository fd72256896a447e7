import ClusterClient.Proofs.Client.Frame
import ClusterClient.Proofs.Replay
/-!
What the listener of a client is told in a run: from the first notice on, all that it
needs to know which partitions the local host has.
-/
namespace ClusterClient.Client

variable {c d e : Client} {t : TaskId} {job : Job}

/-- The partitions of the local host, as the client has them cached. -/
def localView (c : Client) : LocalView := c.directory.catalog.partsOnHost c.options.localHost

/-- What the listener is told while one client becomes another one. -/
structure Told (c d : Client) (news : List Notice) : Prop where
  notices : d.notices = c.notices ++ news
  leads : Notice.replay c.localView news = some d.localView
  /-- While the local view stays the same, nothing is told about it. -/
  idle : d.localView = c.localView →
    ∀ n ∈ news, ∃ space options, n = .optionsUpdated space options

theorem told_nothing (same : d.localView = c.localView) (notices : d.notices = c.notices) :
    Told c d [] where
  notices := by rw [notices, List.append_nil]
  leads := by rw [same, Notice.replay]
  idle _ _ := by simp

theorem Told.before {news : List Notice} (h : Told d e news) (same : d.localView = c.localView)
    (notices : d.notices = c.notices) : Told c e news where
  notices := notices ▸ h.notices
  leads := same ▸ h.leads
  idle := same ▸ h.idle

theorem Told.after {news : List Notice} (h : Told c d news) (same : e.localView = d.localView)
    (notices : e.notices = d.notices) : Told c e news where
  notices := notices ▸ h.notices
  leads := same ▸ h.leads
  idle := same ▸ h.idle

theorem Quiet.localView (h : Quiet c d) (later : Later c d) : d.localView = c.localView := by
  rw [Client.localView, h.directory, later.options, Client.localView]

theorem install_told (listening : c.listening = true) (catalog : Catalog) (hosts : List HostItem) :
    Told c (c.install catalog hosts) (c.newsOf catalog) := by
  obtain ⟨estimates, installed⟩ := c.install_eq catalog hosts
  have news : c.newsOf catalog =
      Notice.changes c.localView (c.install catalog hosts).localView := by
    rw [newsOf, if_pos listening, installed]
    rfl
  constructor
  · rw [installed]
  · rw [news]
    exact Notice.replay_changes _ _
  · intro same
    rw [news, same, Notice.changes_self]
    simp

theorem configure_told (items : List ConfigItem) : ∃ news, Told c (c.configure items) news := by
  obtain ⟨news, options, configured⟩ := c.configure_eq items
  have same : (c.configure items).localView = c.localView := by
    rw [configured]
    rfl
  refine ⟨news, ?_, ?_, fun _ => options⟩
  · rw [configured]
  · rw [same]
    exact Notice.replay_options options _

theorem Built.told {w : Work} {hosts : List HostItem} {built : List Space} {ids : List SpaceId}
    {progress : Progress} (h : Built c job w hosts built ids d progress)
    (listening : c.listening = true) : ∃ news, Told c d news := by
  have installed := install_told listening (.ofList built) hosts
  cases h with
  | next id rest => exact ⟨[], told_nothing rfl rfl⟩
  | data _ => exact ⟨_, installed⟩
  | bare _ _ => exact ⟨_, installed.after rfl rfl⟩
  | configs _ _ => exact ⟨_, installed⟩

theorem Advancing.told {w : Work} {progress : Progress} (h : Advancing c job w d progress)
    (listening : c.listening = true) : ∃ news, Told c d news := by
  cases h with
  | lists _ _ _ _ built => exact built.told listening
  | builds _ _ _ _ _ _ _ _ _ _ _ _ built => exact built.told listening
  | configures scope _ items _ =>
    obtain ⟨news, told⟩ := c.configure_told items
    exact ⟨news, told.after rfl rfl⟩
  | waits => exact ⟨[], told_nothing rfl rfl⟩
  | beats _ _ _ _ clusterId disk _ => exact ⟨[], told_nothing rfl rfl⟩
  | asked _ _ _ _ => exact ⟨[], told_nothing rfl rfl⟩

theorem Answering.told {q : Query} {w : Work} {outcome : Except Fault (MetaReply q.Value)}
    (h : Answering c t q job w outcome d) (listening : c.listening = true) :
    ∃ news, Told c d news := by
  cases h with
  | again estimates s => exact ⟨[], told_nothing rfl rfl⟩
  | pauses estimates s => exact ⟨[], told_nothing rfl rfl⟩
  | fails estimates fault ending =>
    exact ⟨[], told_nothing (ending.quiet.localView ending.later) ending.quiet.notices⟩
  | advances estimates leader v advancing =>
    obtain ⟨news, told⟩ := advancing.told listening
    have told : Told c _ news := told.before rfl rfl
    exact ⟨news, told.after rfl rfl⟩
  | ends estimates leader v advancing ending =>
    obtain ⟨news, told⟩ := advancing.told listening
    have told : Told c _ news := told.before rfl rfl
    exact ⟨news, told.after (ending.quiet.localView ending.later) ending.quiet.notices⟩

/-- A step tells the listener just what it does to the local view, unless it is the one in
which a stop clears the caches. -/
theorem step_told (listening : c.listening = true) (event : Event) :
    (∃ news, Told c (c.step event) news) ∨ Cleared c (c.step event) (c.subject event) := by
  have later := c.step_later event
  have move := c.step_move event
  generalize c.step event = d at move later
  have still : ∀ {t}, Steady c d ∨ Cleared c d t → (∃ news, Told c d news) ∨ Cleared c d t := by
    rintro t (steady | cleared)
    · exact .inl ⟨[], told_nothing (steady.localView later) steady.notices⟩
    · exact .inr cleared
  cases move with
  | nothing => exact .inl ⟨[], told_nothing rfl rfl⟩
  | begins beginning => exact still beginning.steady
  | calls dialling => exact still (.inl dialling.steady)
  | wakes dialling => exact still (.inl dialling.steady)
  | resumes resuming => exact still resuming.steady
  | answers _ answering => exact .inl (answering.told listening)

/-- No stop has cleared the caches yet. -/
def Uncleared (c : Client) : Prop := ∀ t r, c.task? t ≠ some ⟨.stop true, .done r⟩

theorem run_replayed (orderly : Orderly c) (listening : c.listening = true)
    (known : Notice.replay ∅ c.notices = some c.localView) (events : List Event)
    (uncleared : (c.run events).Uncleared) :
    Notice.replay ∅ (c.run events).notices = some (c.run events).localView := by
  induction events generalizing c with
  | nil => exact known
  | cons event events ih =>
    have next := step_orderly orderly event
    refine ih next ((c.step_later event).listening.trans listening) ?_ uncleared
    rcases step_told listening event with ⟨news, told⟩ | cleared
    · rw [told.notices, Notice.replay_append, known]
      exact told.leads
    · -- what is over stays over, so it would be seen at the end of the run
      exact absurd (run_done next events (by simp) cleared.ended) (uncleared _ _)

/-- At every moment of a run, up to the end of a stop that clears the caches, the notices
make sense one after the other and lead from nothing to the partitions that the local host
has. A step that does not change which ones these are tells nothing about them. -/
theorem listener_knows_parts {options : Options} {path : String} {choice : Nat} {disk : FileTree}
    (created : create options path true choice disk = .ok c) (events : List Event)
    (uncleared : (c.run events).Uncleared) :
    Notice.replay ∅ (c.run events).notices =
        some ((c.run events).directory.catalog.partsOnHost options.localHost) ∧
      ∀ event, ((c.run events).step event).localView = (c.run events).localView →
        ∃ news, ((c.run events).step event).notices = (c.run events).notices ++ news ∧
          ∀ n ∈ news, ∃ space changed, n = .optionsUpdated space changed := by
  have new := create_pristine created
  have later := c.run_later events
  have known : Notice.replay ∅ c.notices = some c.localView := by
    rw [new.notices, localView, new.directory]
    rfl
  constructor
  · rw [← new.options, ← later.options]
    exact run_replayed (create_orderly created) new.listening known events uncleared
  · intro event same
    rcases step_told (later.listening.trans new.listening) event with ⟨news, told⟩ | cleared
    · exact ⟨news, told.notices, told.idle same⟩
    · exact ⟨[], by rw [cleared.notices, List.append_nil], by simp⟩

namespace Sample

def storage : Options :=
  { metaAddresses := [⟨"m", 9559⟩], localHost := ⟨"a", 1⟩, role := .storage, retryCount := 0 }

def heard (q : Query) (v : q.Value) : List Event := [.call 0 q, .answer 0 q 0 (.ok (.ok v))]

/-- A space with one partition here and one elsewhere is loaded. -/
def loading : List Event :=
  .invoke .loadData :: heard .spaces [⟨7, "nba"⟩] ++ heard .hosts [] ++
    heard .desc ⟨"nba", 2, 1, .int64, 8⟩ ++
    heard .parts (.ofList [(1, [⟨"a", 1⟩]), (2, [⟨"b", 1⟩])]) ++ heard .tags [] ++
    heard .edges [] ++ heard .tagIndexes [] ++ heard .edgeIndexes []

end Sample

theorem listener_knows_parts_in_sample : ∃ c,
    create Sample.storage "cluster.id" true 0 .empty = .ok c ∧ (c.run Sample.loading).Uncleared ∧
    (c.run Sample.loading).notices = [.spaceAdded 7, .partAdded ⟨7, 1, [⟨"a", 1⟩]⟩] ∧
    Notice.replay ∅ (c.run Sample.loading).notices =
      some ((c.run Sample.loading).directory.catalog.partsOnHost ⟨"a", 1⟩) := by
  obtain ⟨new, created⟩ : ∃ c, create Sample.storage "cluster.id" true 0 .empty = .ok c := ⟨_, rfl⟩
  have uncleared : (new.run Sample.loading).Uncleared := by
    intro t r task
    have jobs : (new.run Sample.loading).tasks.entries.map (fun e => e.2.job) = [.loadData] := by
      cases created
      decide +kernel
    have := List.mem_map_of_mem (f := fun e : TaskId × Task => e.2.job)
      (Table.get?_eq_some_iff.mp task)
    rw [jobs] at this
    cases List.mem_singleton.mp this
  refine ⟨new, created, uncleared, ?_, (listener_knows_parts created _ uncleared).1⟩
  cases created
  decide +kernel

end ClusterClient.Client
