import ClusterClient.Proofs.Attempts
import ClusterClient.Proofs.Client.Beats
import ClusterClient.Proofs.IdFile
import ClusterClient.Proofs.Listening
/-!
The id of the cluster, in memory and on disk. Of all that a step can do only the answer to a
heartbeat sets it, for a storage host that has none; and it is on disk before it is in memory.
-/
namespace ClusterClient.Client

variable {c d : Client} {t : TaskId} {job : Job} {w : Work} {q : Query} {disk : FileTree}

/-- What a client knows of its cluster, and what it has on disk, is as it was. -/
structure Anchored (c d : Client) : Prop where
  options : d.options = c.options
  idFile : d.idFile = c.idFile
  disk : d.disk = c.disk
  clusterId : d.clusterId = c.clusterId

theorem Anchored.refl (c : Client) : Anchored c c := ⟨rfl, rfl, rfl, rfl⟩

/-- The step can as well be one of a client that knows the same. -/
theorem Anchored.before {b : Client} (h : Anchored c d) (same : Anchored b c) : Anchored b d where
  options := h.options.trans same.options
  idFile := h.idFile.trans same.idFile
  disk := h.disk.trans same.disk
  clusterId := h.clusterId.trans same.clusterId

theorem Ending.anchored {result : Except Fault Payload} (h : Ending c t job result d) :
    Anchored c d := by
  cases h <;> exact ⟨rfl, rfl, rfl, rfl⟩

theorem Entry.anchored (h : Entry c t job d) : Anchored c d := by
  cases h with
  | refused _ _ ends => exact ends.anchored
  | _ => exact ⟨rfl, rfl, rfl, rfl⟩

theorem Queueing.anchored (h : Queueing c t job d) : Anchored c d := by
  cases h with
  | waits u _ => exact ⟨rfl, rfl, rfl, rfl⟩
  | turns _ entry => exact entry.anchored.before ⟨rfl, rfl, rfl, rfl⟩

theorem Dialling.anchored (h : Dialling c t q d) : Anchored c d := by
  cases h with
  | made _ _ _ _ _ => exact ⟨rfl, rfl, rfl, rfl⟩

theorem Resuming.anchored (h : Resuming c t d) : Anchored c d := by
  cases h with
  | enters _ _ entry => exact entry.anchored
  | ends _ => exact ⟨rfl, rfl, rfl, rfl⟩
  | rested _ queueing => exact queueing.anchored
  | joined _ _ queueing => exact queueing.anchored

theorem Beginning.anchored {op : Operation} (h : Beginning c op d) : Anchored c d := by
  cases h with
  | start _ queueing => exact queueing.anchored.before ⟨rfl, rfl, rfl, rfl⟩
  | joins clear b _ =>
    obtain ⟨tasks, told⟩ := c.halting.tellBackground_tasks b
    rw [told]
    exact ⟨rfl, rfl, rfl, rfl⟩
  | stop _ _ queueing => exact queueing.anchored.before ⟨rfl, rfl, rfl, rfl⟩
  | refresh queueing => exact queueing.anchored.before ⟨rfl, rfl, rfl, rfl⟩
  | loadData queueing => exact queueing.anchored.before ⟨rfl, rfl, rfl, rfl⟩
  | loadConfig queueing => exact queueing.anchored.before ⟨rfl, rfl, rfl, rfl⟩
  | _ => exact ⟨rfl, rfl, rfl, rfl⟩

theorem install_anchored (c : Client) (catalog : Catalog) (hosts : List HostItem) :
    Anchored c (c.install catalog hosts) := by
  obtain ⟨estimates, installed⟩ := c.install_eq catalog hosts
  rw [installed]
  exact ⟨rfl, rfl, rfl, rfl⟩

theorem Built.anchored {hosts : List HostItem} {built : List Space} {ids : List SpaceId}
    {progress : Progress} (h : Built c job w hosts built ids d progress) : Anchored c d := by
  have installed := c.install_anchored (.ofList built) hosts
  cases h with
  | next _ _ => exact .refl c
  | bare _ _ => exact ⟨installed.options, installed.idFile, installed.disk, installed.clusterId⟩
  | data _ => exact installed
  | configs _ _ => exact installed

theorem Advancing.anchored {progress : Progress} (h : Advancing c job w d progress)
    (apart : ∀ r, w.stage ≠ .beat r) : Anchored c d := by
  cases h with
  | waits => exact .refl c
  | beats r stage _ _ _ _ _ => exact absurd stage (apart r)
  | lists _ _ _ _ built => exact built.anchored
  | builds _ _ _ _ _ _ _ _ _ _ _ _ built => exact built.anchored
  | configures _ _ items _ =>
    obtain ⟨news, _, configured⟩ := c.configure_eq items
    rw [configured]
    exact ⟨rfl, rfl, rfl, rfl⟩
  | asked _ _ _ _ => exact .refl c

/-- Only an answer that a heartbeat has been waiting for can matter. -/
theorem Answering.anchored {outcome : Except Fault (MetaReply q.Value)}
    (h : Answering c t q job w outcome d) :
    Anchored c d ∨ (∃ r, w.stage = .beat r) ∧
      ∃ leader v, outcome = .ok ⟨.succeeded, leader, v⟩ := by
  cases h with
  | again _ _ _ => exact .inl ⟨rfl, rfl, rfl, rfl⟩
  | pauses _ _ _ => exact .inl ⟨rfl, rfl, rfl, rfl⟩
  | fails _ _ ending _ => exact .inl (ending.anchored.before ⟨rfl, rfl, rfl, rfl⟩)
  | advances _ leader v advancing _ =>
    by_cases beat : ∃ r, w.stage = .beat r
    · exact .inr ⟨beat, leader, v, rfl⟩
    · have kept := advancing.anchored (not_exists.mp beat)
      exact .inl ⟨kept.options, kept.idFile, kept.disk, kept.clusterId⟩
  | ends _ leader v advancing ending _ =>
    by_cases beat : ∃ r, w.stage = .beat r
    · exact .inr ⟨beat, leader, v, rfl⟩
    · have kept := ending.anchored.before (advancing.anchored (not_exists.mp beat))
      exact .inl ⟨kept.options, kept.idFile, kept.disk, kept.clusterId⟩

/-- A storage host that has no id yet is told one. -/
structure Joins (c : Client) (id : ClusterId) : Prop where
  role : c.options.role = .storage
  unknown : c.clusterId = 0
  told : id ≠ 0

theorem adopt_kept {id : ClusterId} (kept : ¬ Joins c id) : c.adopt id = (c, .ok ()) :=
  if_neg fun ⟨role, unknown, told⟩ => kept ⟨role, unknown, told⟩

theorem adopt_saved {id : ClusterId} (joins : Joins c id)
    (saved : c.idFile.persist id c.disk = (disk, .ok ())) :
    c.adopt id = ({ c with disk, clusterId := id }, .ok ()) := by
  rw [adopt, if_pos ⟨joins.role, joins.unknown, joins.told⟩, saved]

theorem adopt_unsaved {id : ClusterId} {fault : Fault} (joins : Joins c id)
    (unsaved : c.idFile.persist id c.disk = (disk, .error fault)) :
    c.adopt id = ({ c with disk }, .error (.fatal (.clusterIdUnsaved fault.message))) := by
  rw [adopt, if_pos ⟨joins.role, joins.unknown, joins.told⟩, unsaved]

theorem beaten_adopt (c : Client) (job : Job) (hb : Heartbeat) :
    (c.beaten job hb).1 = (c.adopt hb.clusterId).1 := by
  unfold beaten
  split
  · rename_i adopted
    rw [adopted]
  · rename_i adopted
    rw [adopted]
    split
    · rfl
    · rfl
    · split <;> rfl

theorem proceed_anchored (c : Client) (t : TaskId) (job : Job) (progress : Progress) :
    Anchored c (c.proceed t job progress) := by
  cases progress with
  | more w => exact ⟨rfl, rfl, rfl, rfl⟩
  | ended result => exact (c.conclude_ending t job result).anchored

theorem answer_beat {s : Sending} {r : HeartbeatRequest}
    (calling : c.Calling t .heartbeat job w s) (stage : w.stage = .beat r) (choice : Nat)
    (leader : Option Host) (hb : Heartbeat) :
    c.answer t .heartbeat choice (.ok ⟨.succeeded, leader, hb⟩) =
      (c.beaten job hb).1.proceed t job (c.beaten job hb).2 := by
  have settled : settles
      (.ok ⟨.succeeded, leader, hb⟩ : Except Fault (MetaReply Query.heartbeat.Value)) = true := rfl
  have heard : w.slots.set .heartbeat (.done hb) .heartbeat = .done hb := slots_set_self ..
  have advanced : c.advance job { w with slots := w.slots.set .heartbeat (.done hb) } =
      c.beaten job hb := by
    simp only [advance, stage, heard]
  simp only [answer, calling.task, calling.slot, Sending.receive_settled settled]
  rw [← advanced]
  rfl

/-- A heartbeat of the task is under way, and is answered with that. -/
inductive BeatAnswered (c : Client) (t : TaskId) (job : Job) (hb : Heartbeat) : Event → Prop
  | intro {w : Work} {s : Sending} {r : HeartbeatRequest}
      (calling : c.Calling t .heartbeat job w s) (stage : w.stage = .beat r) (choice : Nat)
      (leader : Option Host) :
    BeatAnswered c t job hb (.answer t .heartbeat choice (.ok ⟨.succeeded, leader, hb⟩))

/-- Nothing else can matter for what is known of the cluster. -/
theorem step_anchored (tidy : Tidy c) (e : Event) :
    Anchored c (c.step e) ∨ ∃ t job hb, BeatAnswered c t job hb e := by
  have move := c.step_move e
  generalize c.step e = d at move
  cases move with
  | nothing => exact .inl (.refl c)
  | begins beginning => exact .inl beginning.anchored
  | calls dialling => exact .inl dialling.anchored
  | wakes dialling => exact .inl dialling.anchored
  | resumes resuming => exact .inl resuming.anchored
  | @answers t q choice _ job w s _ calling answering =>
    refine answering.anchored.imp_right fun ⟨⟨r, stage⟩, leader, v, eq⟩ => ?_
    -- a heartbeat is the one call of its group
    have listed := (tidy.fit t job w calling.task).listed q (by simp [calling.slot])
    rw [stage, Stage.queries, List.mem_singleton] at listed
    subst listed eq
    exact ⟨t, job, v, .intro calling stage choice leader⟩

/-- The heartbeat of the task ends with the fault: it is the result if somebody asked for the
heartbeat, and reported if it is part of a cycle. -/
structure Fails (c d : Client) (t : TaskId) (job : Job) (cause : FatalCause) : Prop where
  ended : ¬ d.Working t
  returned : job = .heartbeat → d.task? t = some ⟨.heartbeat, .done (.error (.fatal cause))⟩
  reported : job ≠ .heartbeat → d.fatal = c.fatal ++ [.fatal cause]

theorem conclude_fails (beats : job.beats = true) (t : TaskId) (cause : FatalCause) :
    Fails c (c.conclude t job (.error (.fatal cause))) t job cause where
  ended := (c.conclude_ending t job _).not_working fun clear stop => by
    rw [stop] at beats
    cases beats
  returned beat := by
    rw [beat]
    exact (task?_finish ..).trans (if_pos rfl)
  reported cycle := by
    cases job with
    | heartbeat => exact absurd rfl cycle
    | refresh => rfl
    | background told => cases told <;> rfl
    | start failed =>
      simp only [conclude, probed]
      split <;> rfl
    | _ => cases beats

variable {hb : Heartbeat} {e : Event}

theorem BeatAnswered.adopts (h : BeatAnswered c t job hb e) :
    Anchored (c.adopt hb.clusterId).1 (c.step e) := by
  cases h with
  | intro calling stage choice leader =>
    rw [step, answer_beat calling stage, ← beaten_adopt c job hb]
    exact proceed_anchored ..

theorem BeatAnswered.kept (h : BeatAnswered c t job hb e) (kept : ¬ Joins c hb.clusterId) :
    Anchored c (c.step e) := by
  have adopts := h.adopts
  rwa [adopt_kept kept] at adopts

theorem BeatAnswered.fails (h : BeatAnswered c t job hb e) (tidy : Tidy c) {cause : FatalCause}
    (refused : c.adopt hb.clusterId = ({ c with disk }, .error (.fatal cause))) :
    Fails c (c.step e) t job cause := by
  cases h with
  | @intro w s r calling stage choice leader =>
    have beats := (tidy.fit t job w calling.task).beats r stage
    have fails := conclude_fails (c := { c with disk }) beats t cause
    rw [step, answer_beat calling stage, beaten, refused]
    exact ⟨fails.ended, fails.returned, fails.reported⟩

theorem Anchored.settled (h : Anchored c d) (settled : ∀ id, ¬ Joins c id) (id : ClusterId) :
    ¬ Joins d id :=
  fun joins => settled id
    ⟨h.options ▸ joins.role, h.clusterId.symm.trans joins.unknown, joins.told⟩

/-- An id in memory is that of a storage host, is positive and is on disk. -/
def Agreed (c : Client) : Prop :=
  c.clusterId ≠ 0 → c.options.role = .storage ∧ 0 < c.clusterId ∧
    c.idFile.load c.disk = .ok (some c.clusterId)

theorem Anchored.agreed (h : Anchored c d) (agreed : Agreed c) : Agreed d := by
  unfold Agreed
  rw [h.options, h.idFile, h.disk, h.clusterId]
  exact agreed

theorem adopt_agreed (agreed : Agreed c) (id : ClusterId) : Agreed (c.adopt id).1 := by
  by_cases joins : Joins c id
  · cases persisted : c.idFile.persist id c.disk with
    | mk disk outcome =>
      cases outcome with
      | ok =>
        rw [adopt_saved joins persisted]
        exact fun _ => ⟨joins.role, ClusterIdFile.load_persist persisted⟩
      | error fault =>
        rw [adopt_unsaved joins persisted]
        exact fun known => absurd joins.unknown known
  · rw [adopt_kept joins]
    exact agreed

theorem step_agreed (tidy : Tidy c) (agreed : Agreed c) (e : Event) : Agreed (c.step e) := by
  rcases step_anchored tidy e with kept | ⟨t, job, hb, answered⟩
  · exact kept.agreed agreed
  · exact answered.adopts.agreed (adopt_agreed agreed hb.clusterId)

theorem run_agreed (tidy : Tidy c) (agreed : Agreed c) (events : List Event) :
    Agreed (c.run events) := by
  induction events generalizing c with
  | nil => exact agreed
  | cons e events ih => exact ih (step_tidy tidy e) (step_agreed tidy agreed e)

theorem step_idFile (tidy : Tidy c) (e : Event) : (c.step e).idFile = c.idFile := by
  rcases step_anchored tidy e with kept | ⟨t, job, hb, answered⟩
  · exact kept.idFile
  · obtain ⟨_, _, adopted⟩ := c.adopt_eq hb.clusterId
    rw [answered.adopts.idFile, adopted]

theorem run_idFile (tidy : Tidy c) (events : List Event) : (c.run events).idFile = c.idFile := by
  induction events generalizing c with
  | nil => rfl
  | cons e events ih => exact (ih (step_tidy tidy e)).trans (step_idFile tidy e)

section

variable {options : Options} {path : String} {listening : Bool} {choice : Nat}

/-- A new client knows what a storage host reads from its file, and nothing else. -/
theorem create_reads (created : create options path listening choice disk = .ok c) :
    c.options = options ∧ c.disk = disk ∧ c.idFile = ⟨path, .ofText options.clusterIdPath⟩ ∧
      ∀ id, id ≠ 0 →
        (c.clusterId = id ↔ options.role = .storage ∧ c.idFile.load disk = .ok (some id)) := by
  unfold create at created
  cases start : MetaLeader.start options.metaAddresses choice with
  | error fault =>
    rw [start] at created
    cases created
  | ok metaLeader =>
    rw [start] at created
    cases created
    refine ⟨rfl, rfl, rfl, fun id nonzero => ?_⟩
    dsimp only
    split
    · rename_i role loaded
      simp [role, loaded]
    · rename_i unread
      exact ⟨fun zero => absurd zero.symm nonzero,
        fun ⟨role, loaded⟩ => (unread id role loaded).elim⟩

theorem create_agreed (created : create options path listening choice disk = .ok c) :
    Agreed c := by
  intro known
  obtain ⟨eq, here, _, reads⟩ := create_reads created
  obtain ⟨role, loaded⟩ := (reads _ known).mp rfl
  rw [eq, here]
  exact ⟨role, ClusterIdFile.load_positive loaded, loaded⟩

/-- A client started anew on the disk of one that knew its cluster knows it at once. -/
theorem restart_knows {c' : Client} {listening' : Bool} {choice' : Nat} {events : List Event}
    (created : create options path listening choice disk = .ok c)
    (known : (c.run events).clusterId ≠ 0)
    (again : create options path listening' choice' (c.run events).disk = .ok c') :
    c'.clusterId = (c.run events).clusterId := by
  have tidy := create_tidy created
  obtain ⟨eq, _, kept, _⟩ := create_reads created
  obtain ⟨_, _, kept', reads⟩ := create_reads again
  obtain ⟨role, _, loaded⟩ := run_agreed tidy (create_agreed created) events known
  rw [run_idFile tidy events, kept, ← kept'] at loaded
  rw [(run_later c events).options, eq] at role
  exact (reads _ known).mpr ⟨role, loaded⟩

end

namespace Sample

/-- Three heartbeats are begun before the first of them is answered. -/
def beating : List Event :=
  .replicate 3 (.invoke .heartbeat) ++ [.call 0 .heartbeat, .call 1 .heartbeat, .call 2 .heartbeat]

def told (t : TaskId) (id : ClusterId) : Event := .answer t .heartbeat 0 (.ok (.ok ⟨id, 0⟩))

end Sample

end ClusterClient.Client
