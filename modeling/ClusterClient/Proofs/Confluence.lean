import ClusterClient.Options
import ClusterClient.Proofs.Conservation
import ClusterClient.Proofs.Guidance
import ClusterClient.Proofs.Lineage
import Mathlib.Data.Multiset.Bind
import Mathlib.Logic.Relation
/-!
The order in which calls end does not matter, as long as what comes of a call depends on
nothing but the call: two calls under way have no partition in common, so what one of them
leads to leaves room for what the other one leads to.
-/
namespace ClusterClient

section Folds

variable {α β γ : Type} {f : β → α → β} {g : β → γ → β}

theorem foldl_step_comm {xs : List α} {y : γ} (comm : ∀ x ∈ xs, ∀ b, f (g b y) x = g (f b x) y)
    (b : β) : xs.foldl f (g b y) = g (xs.foldl f b) y := by
  induction xs generalizing b with
  | nil => rfl
  | cons x xs ih =>
    rw [List.foldl_cons, List.foldl_cons, comm x List.mem_cons_self]
    exact ih (fun x hx => comm x (List.mem_cons_of_mem _ hx)) (f b x)

/-- Two lists can be taken in one after the other, in either order, if their elements can. -/
theorem foldl_foldl_comm {xs : List α} {ys : List γ}
    (comm : ∀ x ∈ xs, ∀ y ∈ ys, ∀ b, f (g b y) x = g (f b x) y) (b : β) :
    xs.foldl f (ys.foldl g b) = ys.foldl g (xs.foldl f b) := by
  induction ys generalizing b with
  | nil => rfl
  | cons y ys ih =>
    rw [List.foldl_cons, List.foldl_cons,
      ih (fun x hx y hy => comm x hx y (List.mem_cons_of_mem _ hy)),
      foldl_step_comm fun x hx => comm x hx y List.mem_cons_self]

end Folds

theorem Table.insert_comm {κ α : Type} [Ordered κ] [DecidableEq κ] (t : Table κ α) {k k' : κ}
    (apart : k ≠ k') (v v' : α) : (t.insert k v).insert k' v' = (t.insert k' v').insert k v := by
  refine ext_get? fun q => ?_
  simp only [get?_insert]
  by_cases here : q = k
  · rw [if_pos here, if_pos here, if_neg (here ▸ apart)]
  · rw [if_neg here, if_neg here]

theorem Table.insertAll_comm {κ α : Type} [Ordered κ] [DecidableEq κ] (t : Table κ α)
    {l l' : List (κ × α)} (apart : ∀ e ∈ l, ∀ e' ∈ l', e.1 ≠ e'.1) :
    (t.insertAll l).insertAll l' = (t.insertAll l').insertAll l :=
  foldl_foldl_comm (fun e' he' e he t => t.insert_comm (apart e he e' he') e.2 e'.2) t

theorem Leaders.follow_comm (l : Leaders) {space space' : SpaceId} {p p' : PartId}
    (apart : p ≠ p') (hint hint' : Option Host) :
    Leaders.follow (Leaders.follow l space p hint) space' p' hint' =
      Leaders.follow (Leaders.follow l space' p' hint') space p hint := by
  refine Table.ext_get? fun k => ?_
  simp only [Leaders.get?_follow]
  by_cases here : k = (space, p)
  · have other : k ≠ (space', p') := fun there =>
      apart (Prod.ext_iff.mp (here.symm.trans there)).2
    rw [if_pos here, if_pos here, if_neg other]
  · rw [if_neg here, if_neg here]

theorem Stats.count_comm (s : Stats) (c c' : Count) :
    (s.count c).count c' = (s.count c').count c := by
  have methods (t : Table String Nat) (m m' : String) :
      (t.modify m 0 (· + 1)).modify m' 0 (· + 1) = (t.modify m' 0 (· + 1)).modify m 0 (· + 1) := by
    refine Table.ext_get? fun k => ?_
    simp only [Table.get?_modify, Table.getD]
    by_cases same : m = m'
    · rw [same]
    · by_cases here : k = m
      · subst here
        simp [same]
      · simp [here, Ne.symm same]
  cases c <;> cases c' <;>
    simp [Stats.count, countSent, countFailed, countLeaderChanged, countRetry, methods]

theorem Int64.max_right_comm (a b c : Int64) : max (max a b) c = max (max a c) b := by
  have eq (a b : Int64) : max a b = if a ≤ b then b else a := rfl
  simp only [eq]
  grind

namespace Scatter

variable {α δ : Type}

theorem follows_comm (l : Leaders) {space space' : SpaceId}
    {hints hints' : List (PartId × Option Host)}
    (apart : ∀ e ∈ hints, ∀ e' ∈ hints', e.1 ≠ e'.1) :
    follows space' (follows space l hints) hints' =
      follows space (follows space' l hints') hints :=
  foldl_foldl_comm (fun e' he' e he l => l.follow_comm (apart e he e' he') e.2 e'.2) l

/-- A call without the number that it was given when it was made. -/
def unnumbered (f : Flight α) : Flight α := { f with ticket := 0 }

theorem unnumbered_sent (ticket wave : Nat) (calls : List (Host × Host × Batch α)) :
    (sent ticket wave calls).map unnumbered =
      calls.map fun c => ⟨0, c.1, c.2.1, wave, c.2.2⟩ := by
  induction calls generalizing ticket with
  | nil => rfl
  | cons c rest ih => simp [sent, ih, unnumbered]

/-- What a request has come to, whatever the order in which that happened. -/
structure Tally (α δ : Type) where
  method : String
  total : Nat
  calls : Multiset (Flight α)
  failed : Table PartId Status
  responses : Multiset (StorageReply δ)
  latencies : Multiset (Host × Int64)
  maxLatency : Int64
  estimates : Estimates

def Ledger.tally (l : Ledger α δ) : Tally α δ where
  method := l.state.method
  total := l.state.total
  calls := (l.calls.map unnumbered : List (Flight α))
  failed := l.state.failed
  responses := l.state.responses
  latencies := l.state.latencies
  maxLatency := l.state.maxLatency
  estimates := l.estimates

section Confluent

variable (limit : Nat) (spaces : List Space)
  (server : Host → Batch α → Nat → Except Fault (StorageReply δ))

/-- What the answer to a call leads to. What was believed about leaders is left out. -/
def sequel (method : String) (f : Flight α) : Upshot α :=
  upshot limit (.ofList spaces) method ∅ f (server f.host f.request f.wave)

def made (method : String) (f : Flight α) : Multiset (Flight α) :=
  ((sequel limit spaces server method f).calls.map fun c =>
    ⟨0, c.1, c.2.1, f.wave + 1, c.2.2⟩ : List (Flight α))

def Tally.absorb (t : Tally α δ) (f : Flight α) : Tally α δ :=
  let u := sequel limit spaces server t.method f
  let told := replies (server f.host f.request f.wave)
  { t with
    calls := t.calls + made limit spaces server t.method f
    failed := t.failed.insertAll u.marks
    responses := t.responses + (told : Multiset (StorageReply δ))
    latencies := t.latencies + (told.map fun r => (f.host, r.latency) : List (Host × Int64))
    maxLatency := told.foldl (fun m r => max m r.latency) t.maxLatency
    estimates := { t.estimates with
      leaders := follows f.request.space t.estimates.leaders u.hints
      stats := u.counts.foldl Stats.count t.estimates.stats } }

theorem tally_take {l : Ledger α δ} (ticketed : Ticketed l.state.flights l.state.dispatched)
    {f : Flight α} (under : f ∈ l.state.flights) :
    (l.take limit (.ofList spaces) l.estimates f (server f.host f.request f.wave)).tally =
      l.tally.absorb limit spaces server f := by
  rw [Ledger.take_eq ticketed under, upshot_congr limit spaces l.state.method _ ∅]
  simp [Ledger.tally, Tally.absorb, made, sequel, unnumbered_sent]

/-- What a request has come to, with the calls that are under way. -/
structure Sight (α δ : Type) where
  under : Multiset (Flight α)
  tally : Tally α δ

def Ledger.sight (l : Ledger α δ) : Sight α δ where
  under := (l.state.flights.map unnumbered : List (Flight α))
  tally := l.tally

namespace Sight

def underway (v : Sight α δ) : Multiset PartId :=
  v.under.bind fun f => (f.request.partIds : Multiset PartId)

/-- Some call ends. No partition is under way twice. -/
def Step (v v' : Sight α δ) : Prop :=
  v.underway.Nodup ∧ ∃ f rest, v.under = f ::ₘ rest ∧
    v' = ⟨rest + made limit spaces server v.tally.method f, v.tally.absorb limit spaces server f⟩

end Sight

variable {limit spaces server}

theorem sequel_unnumbered (method : String) (f : Flight α) :
    sequel limit spaces server method (unnumbered f) = sequel limit spaces server method f := by
  have same (outcome : Except Fault (StorageReply δ)) :
      upshot limit (.ofList spaces) method ∅ (unnumbered f) outcome =
        upshot limit (.ofList spaces) method ∅ f outcome := by
    cases outcome <;> rfl
  exact same _

theorem sight_take {l l' : Ledger α δ} (ticketed : Ticketed l.state.flights l.state.dispatched)
    (apart : l.sight.underway.Nodup)
    (step : Ledger.Takes (Ledger.Told server) limit (.ofList spaces) l l') :
    Sight.Step limit spaces server l.sight l'.sight := by
  obtain ⟨f, under, _, rfl, rfl⟩ := step
  refine ⟨apart, unnumbered f, ((others f l.state.flights).map unnumbered : List (Flight α)),
    ?_, ?_⟩
  · exact Multiset.coe_eq_coe.mpr ((flights_perm ticketed.unique under).map unnumbered)
  · have left : (l.take limit (.ofList spaces) l.estimates f
        (server f.host f.request f.wave)).sight.under =
        ((others f l.state.flights).map unnumbered : List (Flight α)) +
          made limit spaces server l.state.method f := by
      rw [Ledger.sight, Ledger.take_eq ticketed under,
        upshot_congr limit spaces l.state.method _ ∅]
      simp [made, sequel, unnumbered_sent]
    have same : (l.sight.tally.absorb limit spaces server (unnumbered f)) =
        l.tally.absorb limit spaces server f := by
      simp only [Tally.absorb, made, sequel_unnumbered]
      rfl
    rw [same, made, sequel_unnumbered, ← tally_take limit spaces server ticketed under]
    exact congrArg (Sight.mk · _) left

variable
  (fair : ∀ f reply, server f.host f.request f.wave = .ok reply → Fair f reply)

include fair

/-- The partitions that go into new calls are among those of the call that has ended. -/
theorem made_le (method : String) (f : Flight α) :
    ((made limit spaces server method f).bind fun g => (g.request.partIds : Multiset PartId)) ≤
      (f.request.partIds : Multiset PartId) := by
  have parts := upshot_parts (fair f) limit (.ofList spaces) method ∅ 0 (f.wave + 1)
  have again := (List.sublist_append_right _ _).subperm.trans parts.subperm
  have own := (named_nodup (fair f)).subperm fun p => mem_named (fair f) p
  rw [underway_sent] at again
  rw [made, Multiset.coe_bind, List.flatMap_map]
  exact Multiset.coe_le.mpr (again.trans own)

theorem Sight.step_nodup {v v' : Sight α δ} (step : Step limit spaces server v v') :
    v'.underway.Nodup := by
  obtain ⟨apart, f, rest, under, rfl⟩ := step
  refine Multiset.nodup_of_le ?_ apart
  rw [Sight.underway, Sight.underway, under, Multiset.cons_bind, Multiset.add_bind, add_comm]
  exact add_le_add_left (made_le fair v.tally.method f) _

/-- What two calls lead to can be taken in in either order if they share no partition. -/
theorem Tally.absorb_comm (t : Tally α δ) {f g : Flight α}
    (apart : ∀ p ∈ f.request.partIds, p ∉ g.request.partIds) :
    (t.absorb limit spaces server f).absorb limit spaces server g =
      (t.absorb limit spaces server g).absorb limit spaces server f := by
  have marks : ∀ e ∈ (sequel limit spaces server t.method f).marks,
      ∀ e' ∈ (sequel limit spaces server t.method g).marks, e.1 ≠ e'.1 :=
    fun e he e' he' same =>
      apart e.1 (marks_own (fair f) he) (same ▸ marks_own (fair g) he')
  have hints : ∀ e ∈ (sequel limit spaces server t.method f).hints,
      ∀ e' ∈ (sequel limit spaces server t.method g).hints, e.1 ≠ e'.1 :=
    fun e he e' he' same =>
      apart e.1 (hints_own (fair f) he) (same ▸ hints_own (fair g) he')
  simp only [absorb, mk.injEq, true_and]
  refine ⟨add_right_comm .., t.failed.insertAll_comm marks, add_right_comm .., add_right_comm ..,
    ?_, ?_⟩
  · exact foldl_foldl_comm (fun x _ y _ m => Int64.max_right_comm m y.latency x.latency) _
  · rw [follows_comm _ hints]
    congr 1
    exact foldl_foldl_comm (fun x _ y _ s => s.count_comm y x) _

open Relation

/-- Two calls that both could end first can end one after the other. -/
theorem Sight.diamond {v a b : Sight α δ} (ha : Step limit spaces server v a)
    (hb : Step limit spaces server v b) :
    ∃ d, ReflGen (Step limit spaces server) a d ∧
      ReflTransGen (Step limit spaces server) b d := by
  have nodupA := step_nodup fair ha
  have nodupB := step_nodup fair hb
  obtain ⟨nodup, f, rest, under, rfl⟩ := ha
  obtain ⟨-, g, rest', under', rfl⟩ := hb
  rcases Multiset.cons_eq_cons.mp (under.symm.trans under') with
    ⟨rfl, rfl⟩ | ⟨-, both, rfl, rfl⟩
  · exact ⟨_, .refl, .refl⟩
  have apart : ∀ p ∈ f.request.partIds, p ∉ g.request.partIds := by
    rw [underway, under, Multiset.cons_bind, Multiset.cons_bind] at nodup
    intro p hp hp'
    have disjoint := (Multiset.nodup_add.mp nodup).2.2
    exact Multiset.disjoint_left.mp disjoint hp (Multiset.mem_add.mpr (.inl hp'))
  have firstG := ReflGen.single (r := Step limit spaces server)
    ⟨nodupA, g, _, Multiset.cons_add .., rfl⟩
  refine ⟨_, firstG, .single ⟨nodupB, f, _, Multiset.cons_add .., ?_⟩⟩
  rw [Tally.absorb_comm fair v.tally apart, add_right_comm]
  rfl

theorem run_sight {l l' : Ledger α δ} (ticketed : Ticketed l.state.flights l.state.dispatched)
    (apart : l.sight.underway.Nodup)
    (run : ReflTransGen (Ledger.Takes (Ledger.Told server) limit (.ofList spaces)) l l') :
    ReflTransGen (Sight.Step limit spaces server) l.sight l'.sight := by
  have kept : Ticketed l'.state.flights l'.state.dispatched ∧ l'.sight.underway.Nodup ∧
      ReflTransGen (Sight.Step limit spaces server) l.sight l'.sight := by
    induction run with
    | refl => exact ⟨ticketed, apart, .refl⟩
    | tail _ step ih =>
      obtain ⟨ticketed, apart, seen⟩ := ih
      have next := sight_take ticketed apart step
      exact ⟨Ledger.next_ticketed ticketed step.next, Sight.step_nodup fair next, seen.tail next⟩
  exact kept.2.2

omit fair in
theorem Sight.still_of_finished {l : Ledger α δ} (finished : l.state.finished = true)
    (v : Sight α δ) :
    ¬ Step limit spaces server l.sight v := by
  rintro ⟨-, f, rest, under, -⟩
  have none : l.state.flights = [] := List.isEmpty_iff.mp finished
  rw [Ledger.sight, none] at under
  exact Multiset.zero_ne_cons under

omit fair in
theorem opened_apart {requests : Table Host (Batch α)} (disjoint : Disjoint requests)
    (method : String) (e : Estimates) :
    (Ledger.opened method requests e : Ledger α δ).sight.underway.Nodup := by
  have all : (Ledger.opened method requests e : Ledger α δ).sight.underway =
      (requested requests : Multiset PartId) := by
    rw [Sight.underway, Ledger.sight, Ledger.opened_eq, unnumbered_sent, opening, requested,
      Table.values, Multiset.coe_bind, List.flatMap_map, List.flatMap_map, List.flatMap_map]
  rw [all]
  exact Multiset.coe_nodup.mpr (requested_nodup disjoint)

end Confluent

/-- A request to hosts whose answers depend on nothing but the call, and name partitions of
the call only, each at most once, comes to an end; and whatever the order in which the calls
end, it comes to the same end. -/
theorem same_end_in_any_order (options : Options) (spaces : List Space) (method : String)
    {requests : Table Host (Batch α)} (disjoint : Disjoint requests)
    {server : Host → Batch α → Nat → Except Fault (StorageReply δ)}
    (fair : ∀ f reply, server f.host f.request f.wave = .ok reply → Fair f reply)
    (e : Estimates) :
    let Run : Ledger α δ → Ledger α δ → Prop := Relation.ReflTransGen
      (Ledger.Takes (Ledger.Told server) options.waveLimit (.ofList spaces))
    let start := Ledger.opened method requests e
    (∀ l, Run start l → ∃ l', Run l l' ∧ l'.state.finished = true) ∧
    ∀ l l', Run start l → Run start l' → l.state.finished = true → l'.state.finished = true →
      l.state.failed = l'.state.failed ∧
      l.estimates = l'.estimates ∧
      (l.calls.map Flight.call).Perm (l'.calls.map Flight.call) ∧
      l.state.responses.Perm l'.state.responses ∧
      l.state.latencies.Perm l'.state.latencies ∧
      l.state.maxLatency = l'.state.maxLatency ∧
      l.state.completeness = l'.state.completeness ∧
      l.state.succeeded = l'.state.succeeded := by
  intro Run start
  have begun : Ledger.Reached options.waveLimit method requests start := .start e
  refine ⟨fun l run => ?_, fun l l' run run' finished finished' => ?_⟩
  · exact Ledger.finishes_of_acc (fun f => ⟨_, rfl⟩)
      (Ledger.reached_acc (Ledger.reached_of_run begun run))
  have seen := run_sight fair (Ledger.reached_ticketed begun) (opened_apart disjoint method e) run
  have seen' := run_sight fair (Ledger.reached_ticketed begun) (opened_apart disjoint method e) run'
  obtain ⟨v, joined, joined'⟩ :=
    Relation.church_rosser (fun _ _ _ ha hb => Sight.diamond fair ha hb) seen seen'
  have same : l.sight = l'.sight :=
    ((Relation.reflTransGen_iff_eq (Sight.still_of_finished finished)).mp joined).symm.trans
      ((Relation.reflTransGen_iff_eq (Sight.still_of_finished finished')).mp joined')
  have tally : l.tally = l'.tally := congrArg Sight.tally same
  have failed : l.state.failed = l'.state.failed := congrArg Tally.failed tally
  have total : l.state.total = l'.state.total := congrArg Tally.total tally
  refine ⟨failed, congrArg Tally.estimates tally, ?_,
    Multiset.coe_eq_coe.mp (congrArg Tally.responses tally),
    Multiset.coe_eq_coe.mp (congrArg Tally.latencies tally),
    congrArg Tally.maxLatency tally, ?_, ?_⟩
  · have calls := (Multiset.coe_eq_coe.mp (congrArg Tally.calls tally)).map Flight.call
    rw [List.map_map, List.map_map] at calls
    exact calls
  · rw [completeness, completeness, failed, total]
  · rw [succeeded, succeeded, failed]

namespace Sample

/-- The first host says that one partition has moved, and all else is as it should be. -/
def steady (host : Host) (request : Batch Nat) (wave : Nat) : Except Fault (StorageReply Unit) :=
  if host = near ∧ wave = 0 then
    .ok ⟨(request.partIds.filter (· = 1)).map fun p => ⟨p, .leaderChanged, some far⟩, 5, ()⟩
  else .ok ⟨[], 7, ()⟩

theorem steady_fair (f : Flight Nat) (reply : StorageReply Unit)
    (told : steady f.host f.request f.wave = .ok reply) : Fair f reply := by
  unfold steady at told
  split at told
  · cases told
    constructor
    · intro x hx
      obtain ⟨p, hp, rfl⟩ := List.mem_map.mp hx
      exact List.mem_of_mem_filter hp
    · have parts : (((f.request.partIds.filter (· = 1)).map fun p =>
          (⟨p, .leaderChanged, some far⟩ : PartFailure)).map PartFailure.part) =
          f.request.partIds.filter (· = 1) := by
        simp [Function.comp_def]
      rw [parts]
      exact f.request.partIds_nodup.filter _
  · cases told
    exact ⟨by simp, by simp⟩

/-- The calls end in the order of the tickets given. -/
def inOrder (tickets : List Nat) : Ledger Nat Unit :=
  (Ledger.opened "getProps" asked estimates).played steady Ledger.Sample.options.waveLimit catalog
    tickets

end Sample

theorem same_end_in_any_order_in_sample :
    (Sample.inOrder [0, 1, 2]).calls.map Flight.host = [Sample.near, Sample.far, Sample.far] ∧
    (Sample.inOrder [0, 1, 2]).state.latencies ≠ (Sample.inOrder [1, 0, 2]).state.latencies ∧
    (Sample.inOrder [0, 1, 2]).state.latencies.Perm (Sample.inOrder [1, 0, 2]).state.latencies ∧
    (Sample.inOrder [0, 1, 2]).estimates = (Sample.inOrder [1, 0, 2]).estimates := by
  have disjoint : Disjoint Sample.asked := disjoint_of_nodup (by decide +kernel)
  have alike := (same_end_in_any_order Ledger.Sample.options _ "getProps" disjoint
    Sample.steady_fair Sample.estimates).2 (Sample.inOrder [0, 1, 2]) (Sample.inOrder [1, 0, 2])
    (Ledger.played_run ..) (Ledger.played_run ..) (by decide +kernel) (by decide +kernel)
  exact ⟨by decide +kernel, by decide +kernel, alike.2.2.2.2.1, alike.2.1⟩

end Scatter

end ClusterClient
