import ClusterClient.Proofs.Client.Results
import ClusterClient.Proofs.Rotation
/-!
What is believed about the meta hosts after any reports that one of them leads or that one of
them has failed. A host that has failed is given up once, and what is reported late changes
nothing.
-/
namespace ClusterClient

namespace MetaLeader

inductive Report
  | leads (h : Host)
  /-- The host is given up: as the leader, or as the one that is alive. -/
  | failed (toLeader : Bool) (h : Host) (choice : Nat)
deriving DecidableEq

namespace Report

/-- The report can make the host the target if it is not. -/
def Restores (toLeader : Bool) (h : Host) : Report → Prop
  | leads leader => leader = h
  | failed toLeader' h' _ => toLeader' = toLeader ∧ h' ≠ h

/-- The report can put another host in its place if it is the target. -/
def Displaces (toLeader : Bool) (h : Host) : Report → Prop
  | leads leader => leader ≠ h
  | failed toLeader' h' _ => toLeader' = toLeader ∧ h' = h

instance (toLeader : Bool) (h : Host) : (r : Report) → Decidable (r.Restores toLeader h)
  | leads leader => inferInstanceAs (Decidable (leader = h))
  | failed toLeader' h' _ => inferInstanceAs (Decidable (toLeader' = toLeader ∧ h' ≠ h))

instance (toLeader : Bool) (h : Host) : (r : Report) → Decidable (r.Displaces toLeader h)
  | leads leader => inferInstanceAs (Decidable (leader ≠ h))
  | failed toLeader' h' _ => inferInstanceAs (Decidable (toLeader' = toLeader ∧ h' = h))

end Report

def hear (m : MetaLeader) : Report → MetaLeader
  | .leads h => m.setLeader h
  | .failed toLeader h choice => m.rotate toLeader h choice

def hearAll (m : MetaLeader) (reports : List Report) : MetaLeader := reports.foldl hear m

theorem hearAll_append (m : MetaLeader) (reports later : List Report) :
    m.hearAll (reports ++ later) = (m.hearAll reports).hearAll later := List.foldl_append

/-- What each of the reports keeps is kept by all of them. -/
theorem hearAll_keeps {P : MetaLeader → Prop} {reports : List Report}
    (steps : ∀ r ∈ reports, ∀ m, P m → P (m.hear r)) {m : MetaLeader} (h : P m) :
    P (m.hearAll reports) := by
  induction reports generalizing m with
  | nil => exact h
  | cons r rest ih =>
    exact ih (fun r' later => steps r' (.tail _ later)) (steps r (.head _) m h)

/-! ## One rotation -/

/-- Another host in the place of one target. -/
def retarget (m : MetaLeader) (toLeader : Bool) (h : Host) : MetaLeader :=
  if toLeader then { m with leader := h } else { m with active := h }

variable (m : MetaLeader) (toLeader : Bool) (h failed : Host) (choice : Nat)

@[simp] theorem retarget_addresses : (m.retarget toLeader h).addresses = m.addresses := by
  cases toLeader <;> rfl

@[simp] theorem retarget_target (toLeader' : Bool) : (m.retarget toLeader h).target toLeader' =
    if toLeader' = toLeader then h else m.target toLeader' := by
  cases toLeader <;> cases toLeader' <;> rfl

@[simp] theorem retarget_self : m.retarget toLeader (m.target toLeader) = m := by
  cases toLeader <;> rfl

@[simp] theorem setLeader_target : (m.setLeader h).target toLeader = h := by
  cases toLeader <;> rfl

theorem rotate_eq : m.rotate toLeader failed choice =
    if m.target toLeader = failed then m.retarget toLeader (m.other failed choice) else m := by
  cases toLeader <;> rfl

theorem rotate_addresses : (m.rotate toLeader failed choice).addresses = m.addresses := by
  rw [rotate_eq]
  split
  · exact retarget_addresses ..
  · rfl

/-- The other target is left as it was. -/
theorem rotate_beside {toLeader' : Bool} (beside : toLeader' ≠ toLeader) :
    (m.rotate toLeader failed choice).target toLeader' = m.target toLeader' := by
  rw [rotate_eq]
  split
  · rw [retarget_target, if_neg beside]
  · rfl

variable {m toLeader h failed}

theorem rotate_target_eq (hit : m.target toLeader = failed) :
    (m.rotate toLeader failed choice).target toLeader = m.other failed choice := by
  rw [rotate_eq, if_pos hit, retarget_target, if_pos rfl]

/-- A host that is no target any more is not given up again. -/
theorem rotate_eq_self (gone : m.target toLeader ≠ failed) :
    m.rotate toLeader failed choice = m := by
  rw [rotate_eq, if_neg gone]

theorem mem_iff_choose? {α : Type} {l : List α} {x : α} :
    x ∈ l ↔ ∃ choice, choose? l choice = some x := by
  constructor
  · intro listed
    obtain ⟨i, within, nth⟩ := List.mem_iff_getElem.mp listed
    refine ⟨i, ?_⟩
    rw [choose?, Nat.mod_eq_of_lt within, List.getElem?_eq_getElem within, nth]
  · rintro ⟨choice, chosen⟩
    exact mem_of_choose? chosen

theorem mem_others {next : Host} :
    next ∈ (m.addresses.filter fun h => h != failed) ↔ next ∈ m.addresses ∧ next ≠ failed := by
  rw [List.mem_filter, bne_iff_ne]

/-- Any other host can be the next one, by the choice, and no host else. -/
theorem exists_other_iff (elsewhere : ∃ h ∈ m.addresses, h ≠ failed) {next : Host} :
    (∃ choice, m.other failed choice = next) ↔ next ∈ m.addresses ∧ next ≠ failed := by
  obtain ⟨h, differs⟩ := elsewhere
  have filled := List.ne_nil_of_mem (mem_others.mpr differs)
  rw [← mem_others, mem_iff_choose?]
  refine exists_congr fun choice => ?_
  obtain ⟨chosen, some⟩ := choose?_isSome filled choice
  rw [other, some, Option.getD_some, Option.some_inj]

theorem other_alone (alone : ∀ h ∈ m.addresses, h = failed) : m.other failed choice = failed := by
  have none : (m.addresses.filter fun h => h != failed) = [] :=
    List.filter_eq_nil_iff.mpr fun h listed => by simp [alone h listed]
  rw [other, none]
  rfl

theorem rotate_alone (alone : ∀ h ∈ m.addresses, h = failed) :
    m.rotate toLeader failed choice = m := by
  by_cases hit : m.target toLeader = failed
  · rw [rotate_eq, if_pos hit, other_alone choice alone, ← hit, retarget_self]
  · exact rotate_eq_self choice hit

theorem rotate_target_known (m : MetaLeader) (toLeader : Bool) (failed : Host) :
    (m.rotate toLeader failed choice).target toLeader = m.target toLeader ∨
      (m.rotate toLeader failed choice).target toLeader ∈ m.addresses := by
  by_cases hit : m.target toLeader = failed
  · by_cases elsewhere : ∃ h ∈ m.addresses, h ≠ failed
    · rw [rotate_target_eq choice hit]
      exact .inr ((exists_other_iff elsewhere).mp ⟨choice, rfl⟩).1
    · rw [rotate_alone choice (by simpa using elsewhere)]
      exact .inl rfl
  · rw [rotate_eq_self choice hit]
    exact .inl rfl

/-! ## Any reports -/

/-- The targets are configured hosts, or hosts that were reported to lead. -/
structure Founded (addresses : List Host) (reports : List Report) (m : MetaLeader) : Prop where
  configured : m.addresses = addresses
  target : ∀ toLeader, m.target toLeader ∈ addresses ∨ .leads (m.target toLeader) ∈ reports

variable {addresses : List Host} {reports : List Report} {r : Report}

theorem start_founded {first : Nat} (started : start addresses first = .ok m) :
    Founded addresses reports m := by
  unfold start at started
  split at started
  · rename_i host chosen
    cases started
    have listed := mem_of_choose? chosen
    exact ⟨rfl, fun toLeader => .inl (by cases toLeader <;> exact listed)⟩
  · cases started

theorem Founded.hear (founded : Founded addresses reports m) (told : r ∈ reports) :
    Founded addresses reports (m.hear r) := by
  cases r with
  | leads h =>
    refine ⟨founded.configured, fun toLeader => .inr ?_⟩
    rw [MetaLeader.hear, setLeader_target]
    exact told
  | failed toLeader failed choice =>
    refine ⟨(rotate_addresses ..).trans founded.configured, fun toLeader' => ?_⟩
    rw [MetaLeader.hear]
    by_cases same : toLeader' = toLeader
    · rw [same]
      rcases rotate_target_known choice m toLeader failed with kept | listed
      · rw [kept]
        exact founded.target toLeader
      · exact .inl (founded.configured ▸ listed)
    · rw [rotate_beside m toLeader failed choice same]
      exact founded.target toLeader'

theorem Founded.hearAll (founded : Founded addresses reports m) :
    Founded addresses reports (m.hearAll reports) :=
  hearAll_keeps (fun _ told _ founded => founded.hear told) founded

theorem hear_target_ne (away : ¬ r.Restores toLeader failed) (gone : m.target toLeader ≠ failed) :
    (m.hear r).target toLeader ≠ failed := by
  cases r with
  | leads h =>
    rw [hear, setLeader_target]
    exact away
  | failed toLeader' h choice =>
    rw [hear]
    by_cases same : toLeader = toLeader'
    · have again : h = failed := by_contra fun other => away ⟨same.symm, other⟩
      rw [← same, again, rotate_eq_self choice gone]
      exact gone
    · rw [rotate_beside m toLeader' h choice same]
      exact gone

theorem hear_target_eq (kept : ¬ r.Displaces toLeader h) (present : m.target toLeader = h) :
    (m.hear r).target toLeader = h := by
  cases r with
  | leads leader =>
    rw [hear, setLeader_target]
    exact not_not.mp kept
  | failed toLeader' failed choice =>
    rw [hear]
    by_cases same : toLeader = toLeader'
    · have differs : m.target toLeader ≠ failed := fun hit =>
        kept ⟨same.symm, hit.symm.trans present⟩
      rw [← same, rotate_eq_self choice differs]
      exact present
    · rw [rotate_beside m toLeader' failed choice same]
      exact present

end MetaLeader

/-! ## What calls report -/

/-- What a request has to report of an attempt. -/
def Sending.reports {ρ : Type} [Reply ρ] (s : Sending) (choice : Nat) (outcome : Except Fault ρ) :
    List MetaLeader.Report :=
  match s.route, outcome with
  | .part .., _ => []
  | .metaService toLeader, .error _ => [.failed toLeader s.host choice]
  | .metaService _, .ok reply =>
    if Reply.status reply = .leaderChanged then
      match Reply.leaderHint reply with
      | some leader => [.leads leader]
      | none => [.failed true s.host choice]
    else []

theorem Sending.receive_metaLeader {ρ : Type} [Reply ρ] (s : Sending)
    (limit interval : Nat) (catalog : Catalog) (choice : Nat) (e : Estimates)
    (outcome : Except Fault ρ) :
    (s.receive limit interval catalog choice e outcome).1.metaLeader =
      e.metaLeader.hearAll (s.reports choice outcome) := by
  obtain ⟨method, route, host, retries⟩ := s
  cases outcome with
  | error fault =>
    cases route <;> simp only [receive, afterFailure, reports] <;> split <;> rfl
  | ok reply =>
    by_cases changed : Reply.status reply = .leaderChanged
    · cases route with
      | part space id =>
        simp only [receive, if_pos changed, afterLeaderChange, reports]
        split <;> rfl
      | metaService toLeader =>
        simp only [receive, if_pos changed, afterLeaderChange, reports]
        cases Reply.leaderHint reply <;> split <;> rfl
    · simp only [receive, if_neg changed, reports]
      cases route with
      | part space id => rfl
      | metaService toLeader =>
        simp only [if_neg changed]
        rfl

namespace Client

/-- What is reported of the meta hosts with an event. -/
def metaReports (c : Client) : Event → List MetaLeader.Report
  | .answer t q choice outcome =>
    match c.task? t with
    | some ⟨_, .working w⟩ =>
      match w.slots q with
      | .calling s => s.reports choice outcome
      | _ => []
    | _ => []
  | _ => []

/-- All that is reported of the meta hosts in a run, in order. -/
def allMetaReports : Client → List Event → List MetaLeader.Report
  | _, [] => []
  | c, e :: events => c.metaReports e ++ allMetaReports (c.step e) events

variable {c d : Client} {t : TaskId} {job : Job} {w : Work} {q : Query}

theorem Ending.metaLeader {result : Except Fault Payload} (h : Ending c t job result d) :
    d.estimates.metaLeader = c.estimates.metaLeader := by
  cases h <;> rfl

theorem enter_metaLeader (c : Client) (t : TaskId) (job : Job) :
    (c.enter t job).estimates.metaLeader = c.estimates.metaLeader := by
  have live : (if c.stopped then c.conclude t job (.error (.notReady .stopped))
      else c.stand t job (.working (.begin none (c.firstStage job)))).estimates.metaLeader =
        c.estimates.metaLeader := by
    split
    · exact (c.conclude_ending t job _).metaLeader
    · rfl
  cases job with
  | stop clear => cases clear <;> rfl
  | _ => exact live

theorem queue_metaLeader (c : Client) (t : TaskId) (job : Job) :
    (c.queue t job).estimates.metaLeader = c.estimates.metaLeader := by
  unfold queue
  split
  · exact enter_metaLeader _ t job
  · rfl

theorem invoke_metaLeader (c : Client) (op : Operation) :
    (c.invoke op).estimates.metaLeader = c.estimates.metaLeader := by
  cases op with
  | start =>
    simp only [invoke]
    split
    · exact queue_metaLeader ..
    · rfl
    · rfl
    · rfl
  | stop clear =>
    simp only [invoke]
    split
    · rename_i b _
      obtain ⟨tasks, told⟩ := c.halting.tellBackground_tasks b
      have kept := congrArg (fun d : Client => d.estimates.metaLeader) told
      exact kept
    · exact queue_metaLeader ..
  | refresh =>
    simp only [invoke]
    split
    · exact queue_metaLeader ..
    · exact queue_metaLeader ..
    · rfl
    · rfl
  | loadData => exact queue_metaLeader ..
  | loadConfig => exact queue_metaLeader ..
  | heartbeat => rfl
  | ask q request => rfl

theorem resume_metaLeader (c : Client) (t : TaskId) :
    (c.resume t).estimates.metaLeader = c.estimates.metaLeader := by
  unfold resume
  split
  · split
    · exact enter_metaLeader ..
    · rfl
  · rfl
  · exact queue_metaLeader ..
  · split
    · exact queue_metaLeader ..
    · rfl
  · rfl

theorem install_metaLeader (c : Client) (catalog : Catalog) (hosts : List HostItem) :
    (c.install catalog hosts).estimates.metaLeader = c.estimates.metaLeader := by
  simp only [install, compare, notify_eq]

theorem Built.metaLeader {hosts : List HostItem} {built : List Space} {ids : List SpaceId}
    {progress : Progress} (h : Built c job w hosts built ids d progress) :
    d.estimates.metaLeader = c.estimates.metaLeader := by
  cases h with
  | next id rest => rfl
  | _ => exact install_metaLeader c (.ofList built) hosts

theorem Advancing.metaLeader {progress : Progress} (h : Advancing c job w d progress) :
    d.estimates.metaLeader = c.estimates.metaLeader := by
  cases h with
  | lists _ _ _ _ built _ => exact built.metaLeader
  | builds _ _ _ _ _ _ _ _ _ _ _ _ built => exact built.metaLeader
  | configures scope _ items _ => simp only [configure, notify_eq]
  | _ => rfl

theorem proceed_metaLeader (c : Client) (t : TaskId) (job : Job) (progress : Progress) :
    (c.proceed t job progress).estimates.metaLeader = c.estimates.metaLeader := by
  cases progress with
  | more w => rfl
  | ended result => exact (c.conclude_ending t job result).metaLeader

theorem reply_metaLeader (c : Client) (job : Job) (w : Work) (q : Query) (s : Sending)
    (choice : Nat) (outcome : Except Fault (MetaReply q.Value)) :
    (c.reply job w q s choice outcome).1.estimates.metaLeader =
      c.estimates.metaLeader.hearAll (s.reports choice outcome) := by
  rw [← s.receive_metaLeader c.options.retryCount c.options.retryInterval c.directory.catalog choice
    c.estimates outcome]
  unfold reply
  generalize s.receive c.options.retryCount c.options.retryInterval c.directory.catalog choice
    c.estimates outcome = turned
  obtain ⟨estimates, turn⟩ := turned
  cases turn with
  | resend s' => rfl
  | pause interval s' => rfl
  | finish result =>
    cases result with
    | error fault => rfl
    | ok reply =>
      dsimp only
      cases reply.toExcept with
      | error fault => rfl
      | ok v => exact (advance_advancing _ job _).metaLeader

theorem step_metaLeader (c : Client) (e : Event) :
    (c.step e).estimates.metaLeader = c.estimates.metaLeader.hearAll (c.metaReports e) := by
  cases e with
  | invoke op => exact c.invoke_metaLeader op
  | call t q =>
    simp only [step, call, metaReports]
    split
    · split
      · split <;> rfl
      · rfl
    · rfl
  | wake t q =>
    simp only [step, wake, metaReports]
    split
    · split <;> rfl
    · rfl
  | resume t => exact c.resume_metaLeader t
  | answer t q choice outcome =>
    -- whatever does not answer a call is passed over
    cases task : c.task? t with
    | none =>
      simp only [step, answer, metaReports, task]
      rfl
    | some found =>
      obtain ⟨job, standing⟩ := found
      cases standing with
      | working w =>
        cases slot : w.slots q with
        | calling s =>
          simp only [step, metaReports, task, slot]
          rw [answer_proceeds ⟨task, slot⟩, proceed_metaLeader, reply_metaLeader]
        | _ =>
          simp only [step, answer, metaReports, task, slot]
          rfl
      | _ =>
        simp only [step, answer, metaReports, task]
        rfl

theorem run_metaLeader (c : Client) (events : List Event) :
    (c.run events).estimates.metaLeader =
      c.estimates.metaLeader.hearAll (c.allMetaReports events) := by
  induction events generalizing c with
  | nil => rfl
  | cons e events ih =>
    rw [allMetaReports, MetaLeader.hearAll_append, ← step_metaLeader]
    exact ih (c.step e)

theorem create_metaLeader (options : Options) {choice : Nat} {m : MetaLeader}
    (started : MetaLeader.start options.metaAddresses choice = .ok m) (path : String)
    (listening : Bool) (disk : FileTree) :
    ∃ c, create options path listening choice disk = .ok c ∧ c.estimates.metaLeader = m := by
  unfold create
  rw [started]
  exact ⟨_, rfl, rfl⟩

end Client

namespace MetaLeader

theorem start_ok {addresses : List Host} (filled : addresses ≠ []) (first : Nat) :
    ∃ m, start addresses first = .ok m := by
  obtain ⟨h, chosen⟩ := choose?_isSome filled first
  exact ⟨⟨addresses, h, h⟩, by rw [start, chosen]⟩

/-- The targets are always configured hosts, or hosts that were reported to lead. A rotation
changes its own target only, and only if that is the host that has failed: the next one is then
any other configured host, if there is one. With such a one, the failed host is given up once
until something is reported that brings it back; and no failure that is reported late takes the
place of a newer leader. What a client believes after any run is what its calls have reported. -/
theorem reports_heeded {addresses : List Host} (filled : addresses ≠ []) (first : Nat) :
    ∃ m, start addresses first = .ok m ∧
      (∀ reports, let now := m.hearAll reports
        Founded addresses reports now ∧ ∀ toLeader failed,
          (∀ choice, (now.rotate toLeader failed choice).target (!toLeader) =
            now.target (!toLeader)) ∧
          (now.target toLeader ≠ failed → ∀ choice, now.rotate toLeader failed choice = now) ∧
          ((∀ h ∈ addresses, h = failed) → ∀ choice, now.rotate toLeader failed choice = now) ∧
          ((∃ h ∈ addresses, h ≠ failed) →
            (now.target toLeader = failed → ∀ next,
              (∃ choice, (now.rotate toLeader failed choice).target toLeader = next) ↔
                next ∈ addresses ∧ next ≠ failed) ∧
            ∀ choice later, (∀ r ∈ later, ¬ r.Restores toLeader failed) →
              let after := (now.rotate toLeader failed choice).hearAll later
              ∀ again, after.rotate toLeader failed again = after) ∧
          ∀ newer, newer ≠ failed → ∀ later, (∀ r ∈ later, ¬ r.Displaces toLeader newer) →
            let after := (now.setLeader newer).hearAll later
            after.target toLeader = newer ∧
              ∀ choice, after.rotate toLeader failed choice = after) ∧
      ∀ (options : Options) path listening disk,
        ∃ c, Client.create { options with metaAddresses := addresses } path listening first disk =
            .ok c ∧
          ∀ events, (c.run events).estimates.metaLeader = m.hearAll (c.allMetaReports events) := by
  obtain ⟨m, started⟩ := start_ok filled first
  refine ⟨m, started, fun reports => ?_, fun options path listening disk => ?_⟩
  · have founded : Founded addresses reports (m.hearAll reports) :=
      (start_founded started).hearAll
    have configured := founded.configured
    generalize m.hearAll reports = now at founded configured ⊢
    subst configured
    refine ⟨founded, fun toLeader failed => ⟨fun choice => ?_, fun gone choice => ?_,
      fun alone choice => ?_, fun elsewhere => ⟨fun hit next => ?_, fun choice later away => ?_⟩,
      fun newer differs later kept => ?_⟩⟩
    · exact rotate_beside now toLeader failed choice (by simp)
    · exact rotate_eq_self choice gone
    · exact rotate_alone choice alone
    · simp only [rotate_target_eq _ hit]
      exact exists_other_iff elsewhere
    · intro after again
      have gone : after.target toLeader ≠ failed :=
        hearAll_keeps (P := fun m => m.target toLeader ≠ failed)
          (fun r told _ gone => hear_target_ne (away r told) gone)
          (rotate_target_ne elsewhere toLeader choice)
      exact rotate_eq_self again gone
    · intro after
      have present : after.target toLeader = newer :=
        hearAll_keeps (P := fun m => m.target toLeader = newer)
          (fun r told _ present => hear_target_eq (kept r told) present)
          (setLeader_target now toLeader newer)
      exact ⟨present, fun choice => rotate_eq_self choice (present ▸ differs)⟩
  · obtain ⟨c, created, believed⟩ := Client.create_metaLeader
      { options with metaAddresses := addresses } started path listening disk
    refine ⟨c, created, fun events => ?_⟩
    rw [Client.run_metaLeader, believed]

namespace Sample

def near : Host := ⟨"m1", 9559⟩
def far : Host := ⟨"m2", 9559⟩
def outside : Host := ⟨"m9", 9559⟩

/-- One host is configured twice. -/
def addresses : List Host := [near, far, near]

/-- The host that has failed already fails again, and a host that is not configured leads. -/
def meanwhile : List Report := [.failed true near 1, .failed false near 0, .leads outside]

/-- A host fails that leads no more, before and after the leader is named again. -/
def late : List Report := [.failed true near 1, .leads far, .failed false near 0]

end Sample

theorem reports_heeded_in_sample :
    Sample.addresses ≠ [] ∧ (∃ h ∈ Sample.addresses, h ≠ Sample.near) ∧
      (∀ r ∈ Sample.meanwhile, ¬ r.Restores true Sample.near) ∧
      (∀ r ∈ Sample.late, ¬ r.Displaces true Sample.far) ∧
      ∃ m, start Sample.addresses 2 = .ok m ∧ m.target true = Sample.near ∧
        (∃ choice, (m.rotate true Sample.near choice).target true = Sample.far) ∧
        ((m.rotate true Sample.near 0).hearAll Sample.meanwhile).rotate true Sample.near 5 =
          (m.rotate true Sample.near 0).hearAll Sample.meanwhile ∧
        ((m.setLeader Sample.far).hearAll Sample.late).target true = Sample.far ∧
        m.rotate true Sample.outside 0 = m := by
  obtain ⟨m, started, heeded, -⟩ :=
    @reports_heeded Sample.addresses (by decide) 2
  have elsewhere : ∃ h ∈ Sample.addresses, h ≠ Sample.near :=
    ⟨Sample.far, .tail _ (.head _), by decide⟩
  have away : ∀ r ∈ Sample.meanwhile, ¬ r.Restores true Sample.near := by decide
  have kept : ∀ r ∈ Sample.late, ¬ r.Displaces true Sample.far := by decide
  have twice : start Sample.addresses 2 = .ok ⟨Sample.addresses, Sample.near, Sample.near⟩ := by
    decide
  have target : m.target true = Sample.near := by
    cases started.symm.trans twice
    rfl
  obtain ⟨-, rotations⟩ := heeded []
  obtain ⟨-, -, -, again, newer⟩ := rotations true Sample.near
  obtain ⟨moves, once⟩ := again elsewhere
  obtain ⟨-, other, -⟩ := rotations true Sample.outside
  refine ⟨by decide, elsewhere, away, kept, m, started, target, ?_, once 0 Sample.meanwhile away 5,
    (newer Sample.far (by decide) Sample.late kept).1, other ?_ 0⟩
  · exact (moves target Sample.far).mpr ⟨.tail _ (.head _), by decide⟩
  · exact fun hit => absurd (target.symm.trans hit) (by decide)

end MetaLeader

end ClusterClient
