import ClusterClient.Proofs.Naps
import ClusterClient.Proofs.Progress
import ClusterClient.Proofs.Stopping
/-!
All that there is to a start: what has come of it in any run, that it may get through, how long it
sleeps between its probes, and that only its end makes the client ready.
-/
namespace ClusterClient.Client

variable {c : Client}

theorem create_startable {options : Options} {path : String} {listening : Bool} {choice : Nat}
    {disk : FileTree} (created : create options path listening choice disk = .ok c) :
    Startable c where
  reached := ⟨_, _, _, _, _, c, [], created, rfl⟩
  created := (create_pristine created).phase
  going := (create_pristine created).stopped
  calm := fun u ⟨_, task, _⟩ => nomatch ((create_pristine created).tasks u).symm.trans task

open Simulation (Bench) in
/-- A start of a client that can be started probes one time after the other, with a sleep of the
retry interval in between, up to the first probe that gets through or the last one that it may
try. A later start may do so again. However many starts there are, there is one background task at
most, and a client becomes ready only with a probe that has read everything. -/
theorem starts_until_ready {options : Options} {path : String} {listening : Bool} {choice : Nat}
    {disk : FileTree} {new : Client}
    (created : create options path listening choice disk = .ok new) (history : List Event) :
    let c := new.run history
    (Startable c → ∀ events, (∀ clear, .invoke (.stop clear) ∉ events) →
      (∀ seen, seen <+: events → seen ≠ events →
        (c.run (.invoke .start :: seen)).isOver c.nextTask = false) →
      Probed c (.invoke .start :: events) (c.run (.invoke .start :: events))) ∧
    (Startable c → ∀ n, ¬ c.Spent n → ∃ before events, Uncalled before ∧ Uncalled events ∧
      Readied ((c.run before).run (.invoke .start :: events)) (c.run before).nextTask n) ∧
    (∀ u v, c.Serves u → c.Serves v → u = v) ∧
    (∀ e, c.phase ≠ .running → (c.step e).phase = .running →
      ReloadedIn new (c.subject e) (history ++ [e]) (c.step e)) ∧
    ∀ t n b b', Bench.Naps new t n b b' →
      let rest := min new.options.retryInterval Bench.longest
      (∀ alarm ∈ b'.alarms t, ∃ since, b.now ≤ since ∧ since ≤ b'.now ∧
        alarm.deadline = since + rest) ∧
      (Bench.Wakes b' t n → b.now + rest ≤ b'.now) := by
  intro c
  have regular := create_regular created
  refine ⟨run_probed, fun h n => h.may_succeed, ?_, fun e => ?_, fun t n b b' naps => ?_⟩
  · exact (run_lone regular (create_lone created) history).alone
  · refine reloaded_of_ready regular history e ?_
    rintro ⟨job, w, task, _⟩
    cases ((create_pristine created).tasks _).symm.trans task
  · exact ⟨(naps.asleep regular).2.set, naps.long regular⟩

namespace Sample

open Simulation

/-- The bench as a task leaves it with one step. -/
def acted (b : Bench) : Bench := (b.actTask 0).getD b

theorem goes_acted {b : Bench} (acts : (b.actTask 0).isSome = true) : b.Goes (acted b) := by
  obtain ⟨b', acts⟩ := Option.isSome_iff_exists.mp acts
  rw [acted, acts]
  exact .acts 0 acts

/-- A start has been called while the meta service is down. -/
def down (new : Client) : Bench :=
  { Bench.start (new.invoke .start) with
    service := { MetaService.empty with down := patient.metaAddresses } }

/-- The first probe has failed. -/
def failed (new : Client) : Bench := acted (acted (down new))

/-- The alarm was set and has gone off. -/
def alarmed (new : Client) : Bench := ((acted (failed new)).jump?).getD (failed new)

theorem napped {new : Client} (created : create patient "cluster.id" false 0 .empty = .ok new) :
    Bench.Naps new 0 1 (failed new) (alarmed new) ∧ Bench.Wakes (alarmed new) 0 1 := by
  have reached : Bench.Reached new (down new) :=
    (Bench.Reached.start.next (.begins .start)).next (.aside rfl rfl rfl fun _ => ⟨rfl, rfl⟩)
  have jumps : ((acted (failed new)).jump?) = some (alarmed new) := by cases created; rfl
  refine ⟨⟨⟨acted (down new), reached.next (goes_acted ?_), ?_, goes_acted ?_⟩,
    .on (.on (.rests ?_) (goes_acted ?_) ?_) (.jumps jumps) ?_⟩, acted (alarmed new),
    goes_acted ?_, ?_⟩
  all_goals cases created
  · decide +kernel
  · nofun
  · decide +kernel
  · rfl
  · decide +kernel
  · rfl
  · rfl
  · decide +kernel
  · nofun

end Sample

theorem starts_until_ready_in_sample : ∃ new patient,
    create Sample.options "cluster.id" false 0 .empty = .ok new ∧
    create Sample.patient "cluster.id" false 0 .empty = .ok patient ∧
    Probed new Sample.refused (new.run Sample.refused) ∧
    (∃ before events, Readied (((new.run Sample.refused).run before).run
      (.invoke .start :: events)) ((new.run Sample.refused).run before).nextTask 0) ∧
    ReloadedIn new 0 (.invoke .start :: Sample.read ++ [.answer 0 .configs 0 (.ok (.ok []))])
      (new.run (.invoke .start :: Sample.read ++ [.answer 0 .configs 0 (.ok (.ok []))])) ∧
    (Sample.failed patient).now + 1000 ≤ (Sample.alarmed patient).now := by
  obtain ⟨new, created⟩ : ∃ c, create Sample.options "cluster.id" false 0 .empty = .ok c :=
    ⟨_, rfl⟩
  obtain ⟨patient, created'⟩ : ∃ c, create Sample.patient "cluster.id" false 0 .empty = .ok c :=
    ⟨_, rfl⟩
  have probed : Probed new Sample.refused (new.run Sample.refused) := by
    refine (starts_until_ready created []).1 (create_startable created)
      [.call 0 .heartbeat, Sample.refusal] (by simp [Sample.refusal]) ?_
    intro seen prefixed short
    have parts : seen <+: [.call 0 .heartbeat] ++ [Sample.refusal] := prefixed
    rcases List.prefix_concat_iff.mp parts with rfl | prefixed
    · exact absurd rfl short
    · have all : ∀ seen ∈ [Event.call 0 .heartbeat].inits,
          (new.run (.invoke .start :: seen)).isOver new.nextTask = false := by
        cases created
        decide +kernel
      exact all seen ((List.mem_inits ..).mpr prefixed)
  have gaveUp : (new.run Sample.refused).phase = .created := by
    cases created
    decide +kernel
  have again : Startable (new.run Sample.refused) := by
    cases probed with
    | goes _ _ _ _ probing _ => cases gaveUp.symm.trans probing
    | gaveUp _ _ _ _ _ again _ => exact again
    | ready _ _ _ _ running _ _ _ _ => cases gaveUp.symm.trans running
  refine ⟨new, patient, created, created', probed, ?_, ?_, ?_⟩
  · obtain ⟨before, events, _, _, ready⟩ :=
      (starts_until_ready created Sample.refused).2.1 again 0 (not_spent_zero _)
    exact ⟨before, events, ready⟩
  · rw [run_concat]
    refine (starts_until_ready created (.invoke .start :: Sample.read)).2.2.2.1
      (.answer 0 .configs 0 (.ok (.ok []))) ?_ ?_
    · cases created
      decide +kernel
    · cases created
      decide +kernel
  · obtain ⟨naps, wakes⟩ := Sample.napped created'
    have long := ((starts_until_ready created' []).2.2.2.2 0 1 _ _ naps).2 wakes
    cases created'
    exact long

end ClusterClient.Client
