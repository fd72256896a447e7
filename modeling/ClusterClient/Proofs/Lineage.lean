import ClusterClient.Options
import ClusterClient.Proofs.Conservation
import ClusterClient.Proofs.Ledger
import Mathlib.Logic.Hydra
/-!
What a scattered request comes to against hosts that answer whatever they like: it comes to
an end, no partition is asked for more often than there are waves, and none is lost without
being marked.
-/
namespace ClusterClient.Scatter

variable {α δ : Type}

/-- The calls for a partition that descend from the request to a host. -/
def carriers (calls : List (Flight α)) (host : Host) (p : PartId) : List (Flight α) :=
  calls.filter fun g => decide (g.origin = host ∧ p ∈ g.request.partIds)

theorem mem_carriers {calls : List (Flight α)} {host : Host} {p : PartId} {g : Flight α} :
    g ∈ carriers calls host p ↔ g ∈ calls ∧ g.origin = host ∧ p ∈ g.request.partIds := by
  simp [carriers]

theorem carriers_append (calls calls' : List (Flight α)) (host : Host) (p : PartId) :
    carriers (calls ++ calls') host p = carriers calls host p ++ carriers calls' host p :=
  List.filter_append ..

/-- The calls that are made when one ends, seen through what they ask for. -/
theorem carriers_sent (ticket wave : Nat) {calls : List (Host × Host × Batch α)} {origin : Host}
    (own : ∀ c ∈ calls, c.1 = origin) (p : PartId) :
    (carriers (sent ticket wave calls) origin p).map Flight.call = asking p calls := by
  have same : carriers (sent ticket wave calls) origin p = (sent ticket wave calls).filter
      ((fun c => decide (p ∈ c.2.2.partIds)) ∘ Flight.call) := by
    refine List.filter_congr fun g hg => ?_
    have origin_eq : g.origin = origin := own _ (call_of_sent hg)
    simp [origin_eq, Flight.call]
  rw [same, ← List.filter_map, sent_calls, asking]

namespace Ledger

/-- Where the last call for a partition stands: it is under way, or the partition has
failed, or the call was answered by a reply that does not name it. -/
inductive Fate (l : Ledger α δ) (p : PartId) (last : Flight α) : Prop
  | under (h : last ∈ l.state.flights)
  | failed (h : p ∈ l.state.failed.keys)
  | answered (reply : StorageReply δ) (told : ⟨last, .ok reply⟩ ∈ l.ended)
      (unlisted : p ∉ reply.failed.map PartFailure.part)

/-- The calls for a partition that descend from one request: one for each wave, and only
the last of them may still be under way. -/
structure Line (l : Ledger α δ) (host : Host) (p : PartId) (earlier : List (Flight α))
    (last : Flight α) : Prop where
  calls : carriers l.calls host p = earlier ++ [last]
  waves : (earlier ++ [last]).map Flight.wave = List.range (earlier.length + 1)
  past : ∀ g ∈ earlier, g ∉ l.state.flights
  fate : Fate l p last

structure Traced (limit : Nat) (requests : Table Host (Batch α)) (l : Ledger α δ) : Prop where
  ticketed : Ticketed l.state.flights l.state.dispatched
  tickets : l.calls.map Flight.ticket = List.range l.state.dispatched
  under : ∀ g ∈ l.state.flights, g ∈ l.calls
  waves : ∀ g ∈ l.calls, g.wave < limit
  own : ∀ g ∈ l.calls, ∃ r, requests.get? g.origin = some r ∧
    ∀ p ∈ g.request.partIds, p ∈ r.partIds
  line : ∀ host r p, requests.get? host = some r → p ∈ r.partIds →
    ∃ earlier last, Line l host p earlier last

variable {limit : Nat} {requests : Table Host (Batch α)} {l l' : Ledger α δ} {host : Host}
  {p : PartId}

theorem ticket_eq (ticketed : Ticketed l.state.flights l.state.dispatched) {f g : Flight α}
    (hf : f ∈ l.state.flights) (hg : g ∈ l.state.flights) (same : f.ticket = g.ticket) : f = g :=
  List.inj_on_of_nodup_map ticketed.unique hf hg same

theorem mem_others {f g : Flight α} {flights : List (Flight α)} :
    g ∈ others f flights ↔ g ∈ flights ∧ g.ticket ≠ f.ticket := by
  simp [others]

theorem mem_keys_insertAll_of_mem {t : Table PartId Status} (marks : List (PartId × Status))
    (h : p ∈ t.keys) : p ∈ (t.insertAll marks).keys :=
  (Table.mem_keys_insertAll marks t p).mpr (.inr h)

/-- The line of a partition that the call which ended did not ask for. -/
theorem Line.aside {earlier : List (Flight α)} {last f : Flight α}
    (line : Line l host p earlier last) (traced : Traced limit requests l)
    (under : f ∈ l.state.flights) (other : ¬ (f.origin = host ∧ p ∈ f.request.partIds))
    (catalog : Catalog) (e : Estimates) (outcome : Except Fault (StorageReply δ)) :
    Line (l.take limit catalog e f outcome) host p earlier last := by
  rw [take_eq traced.ticketed under]
  have none : carriers (sent l.state.dispatched (f.wave + 1)
      (upshot limit catalog l.state.method e.leaders f outcome).calls) host p = [] := by
    refine List.filter_eq_nil_iff.mpr fun g hg => ?_
    rw [decide_eq_true_iff]
    rintro ⟨origin, hp⟩
    have call := parts_of_upshot (call_of_sent hg)
    exact other ⟨call.1.symm.trans origin, call.2 p hp⟩
  have mine : last ∈ carriers l.calls host p := line.calls ▸ List.mem_append_right _ (by simp)
  refine ⟨?_, line.waves, fun g hg => ?_, ?_⟩
  · rw [carriers_append, none, List.append_nil, line.calls]
  · have old : g ∈ l.calls := by
      have : g ∈ carriers l.calls host p := line.calls ▸ List.mem_append_left _ hg
      exact (mem_carriers.mp this).1
    intro here
    rcases List.mem_append.mp here with here | here
    · exact line.past g hg (mem_others.mp here).1
    · have below : g.ticket < l.state.dispatched := by
        have := List.mem_map_of_mem (f := Flight.ticket) old
        rwa [traced.tickets, List.mem_range] at this
      exact absurd (ticket_of_sent here) (by omega)
  · cases line.fate with
    | under h =>
      refine .under (List.mem_append_left _ (mem_others.mpr ⟨h, fun same => other ?_⟩))
      rw [← ticket_eq traced.ticketed h under same]
      exact (mem_carriers.mp mine).2
    | failed h => exact .failed (mem_keys_insertAll_of_mem _ h)
    | answered reply told unlisted =>
      exact .answered reply (List.mem_append_left _ told) unlisted

/-- The line of a partition that the call which ended did ask for. -/
theorem Line.taken {earlier : List (Flight α)} {last f : Flight α}
    (line : Line l host p earlier last) (traced : Traced limit requests l)
    (under : f ∈ l.state.flights) (origin : f.origin = host) (own : p ∈ f.request.partIds)
    (catalog : Catalog) (e : Estimates) (outcome : Except Fault (StorageReply δ)) :
    ∃ earlier' last', Line (l.take limit catalog e f outcome) host p earlier' last' := by
  have mine : f ∈ earlier ++ [last] :=
    line.calls ▸ mem_carriers.mpr ⟨traced.under f under, origin, own⟩
  have eq : f = last := by
    rcases List.mem_append.mp mine with early | late
    · exact absurd under (line.past f early)
    · exact List.mem_singleton.mp late
  subst eq
  have below : ∀ g ∈ earlier ++ [f], g.ticket < l.state.dispatched := by
    intro g hg
    have old : g ∈ l.calls := (mem_carriers.mp (line.calls ▸ hg)).1
    have := List.mem_map_of_mem (f := Flight.ticket) old
    rwa [traced.tickets, List.mem_range] at this
  rw [take_eq traced.ticketed under]
  have made := carriers_sent l.state.dispatched (f.wave + 1)
    (show ∀ c ∈ (upshot limit catalog l.state.method e.leaders f outcome).calls, c.1 = f.origin
      from fun c hc => (parts_of_upshot hc).1) p
  rw [origin] at made
  have gone : ∀ calls, ∀ g ∈ earlier ++ [f],
      g ∉ others f l.state.flights ++ sent l.state.dispatched (f.wave + 1) calls := by
    intro calls g hg here
    rcases List.mem_append.mp here with here | here
    · obtain ⟨here, ne⟩ := mem_others.mp here
      rcases List.mem_append.mp hg with early | late
      · exact line.past g early here
      · exact ne (congrArg Flight.ticket (List.mem_singleton.mp late))
    · have := below g hg
      exact absurd (ticket_of_sent here) (by omega)
  rcases upshot_cases limit catalog l.state.method e.leaders f outcome own with
    ⟨c, single⟩ | ⟨none, ended⟩
  · rw [single] at made
    obtain ⟨g, carried, -⟩ := List.map_eq_singleton_iff.mp made
    have new : g ∈ sent l.state.dispatched (f.wave + 1)
        (upshot limit catalog l.state.method e.leaders f outcome).calls :=
      (mem_carriers.mp (carried ▸ List.mem_singleton_self g)).1
    refine ⟨earlier ++ [f], g, ⟨?_, ?_, fun g hg => gone _ g hg, .under ?_⟩⟩
    · rw [carriers_append, line.calls, carried]
    · have wave : f.wave = earlier.length := by
        have := congrArg List.getLast? line.waves
        simpa [List.range_succ] using this
      rw [List.map_append, line.waves]
      simp [wave_of_sent new, wave, List.range_succ]
    · exact List.mem_append_right _ new
  · rw [none, List.map_eq_nil_iff] at made
    refine ⟨earlier, f, ⟨?_, line.waves, fun g hg => gone _ g (List.mem_append_left _ hg), ?_⟩⟩
    · rw [carriers_append, made, List.append_nil, line.calls]
    · rcases ended with failed | ⟨reply, rfl, unlisted⟩
      · exact .failed ((Table.mem_keys_insertAll _ _ p).mpr (.inl failed))
      · exact .answered reply (List.mem_append_right _ (List.mem_singleton_self _)) unlisted

theorem next_traced (traced : Traced limit requests l) (step : Next limit l l') :
    Traced limit requests l' := by
  have ticketed := next_ticketed traced.ticketed step
  obtain ⟨f, under, catalog, e, outcome, rfl⟩ := step
  have lines : ∀ host r p, requests.get? host = some r → p ∈ r.partIds →
      ∃ earlier last, Line (l.take limit catalog e f outcome) host p earlier last := by
    intro host r p hr hp
    obtain ⟨earlier, last, line⟩ := traced.line host r p hr hp
    by_cases mine : f.origin = host ∧ p ∈ f.request.partIds
    · exact line.taken traced under mine.1 mine.2 catalog e outcome
    · exact ⟨earlier, last, line.aside traced under mine catalog e outcome⟩
  rw [take_eq traced.ticketed under] at ticketed lines ⊢
  refine ⟨ticketed, ?_, fun g hg => ?_, fun g hg => ?_, fun g hg => ?_, lines⟩
  · simp only [List.map_append, traced.tickets, sent_tickets]
    rw [List.range_eq_range', List.range_eq_range', ← List.range'_append_1, Nat.zero_add]
  · rcases List.mem_append.mp hg with hg | hg
    · exact List.mem_append_left _ (traced.under g (mem_others.mp hg).1)
    · exact List.mem_append_right _ hg
  · rcases List.mem_append.mp hg with hg | hg
    · exact traced.waves g hg
    · rw [wave_of_sent hg]
      exact wave_of_upshot (call_of_sent hg)
  · rcases List.mem_append.mp hg with hg | hg
    · exact traced.own g hg
    · obtain ⟨origin, parts⟩ := parts_of_upshot (call_of_sent hg)
      obtain ⟨r, hr, own⟩ := traced.own f (traced.under f under)
      exact ⟨r, (congrArg requests.get? origin).trans hr, fun p hp => own p (parts p hp)⟩

theorem opened_traced (method : String) (waves : 0 < limit) (e : Estimates) :
    Traced limit requests (opened method requests e : Ledger α δ) := by
  have begun : Reached limit method requests (opened method requests e : Ledger α δ) := .start e
  have ticketed := reached_ticketed begun
  have entry : ∀ c ∈ opening requests, c.1 = c.2.1 ∧ requests.get? c.1 = some c.2.2 := by
    intro c hc
    obtain ⟨t, ht, rfl⟩ := List.mem_map.mp hc
    exact ⟨rfl, Table.get?_eq_some_iff.mpr ht⟩
  rw [opened_eq] at ticketed ⊢
  refine ⟨ticketed, ?_, fun g hg => hg, fun g hg => ?_, fun g hg => ?_, ?_⟩
  · rw [sent_tickets, List.range_eq_range']
  · rw [wave_of_sent hg]
    exact waves
  · exact ⟨g.request, (entry _ (call_of_sent hg)).2, fun _ hp => hp⟩
  · intro host r p hr hp
    have single : (requests.entries.filter fun t => decide (t.1 = host ∧ p ∈ t.2.partIds)) =
        [(host, r)] := by
      refine Table.filter_entries hr fun t ht => ?_
      rw [decide_eq_true_iff]
      refine ⟨fun h => h.1, fun same => ⟨same, ?_⟩⟩
      have value := Table.get?_eq_some_iff.mpr ht
      rw [same, hr] at value
      exact Option.some.inj value ▸ hp
    have calls : (carriers (sent 0 0 (opening requests)) host p).map Flight.call =
        [(host, host, r)] := by
      have same : carriers (sent 0 0 (opening requests)) host p =
          (sent 0 0 (opening requests)).filter
            ((fun c => decide (c.1 = host ∧ p ∈ c.2.2.partIds)) ∘ Flight.call) := rfl
      rw [same, ← List.filter_map, sent_calls, opening, List.filter_map]
      exact congrArg _ single
    obtain ⟨g, carried, -⟩ := List.map_eq_singleton_iff.mp calls
    have here : g ∈ sent 0 0 (opening requests) :=
      (mem_carriers.mp (carried ▸ List.mem_singleton_self g)).1
    refine ⟨[], g, ⟨carried, ?_, by simp, .under here⟩⟩
    simp [wave_of_sent here]

theorem reached_traced {method : String} (waves : 0 < limit)
    (h : Reached limit method requests l) : Traced limit requests l := by
  induction h with
  | start e => exact opened_traced method waves e
  | next _ step ih => exact next_traced ih step

/-- How many waves each call under way is from the last one. -/
def remaining (limit : Nat) (l : Ledger α δ) : Multiset Nat :=
  (l.state.flights.map fun g => limit - g.wave : List Nat)

/-- A call makes place for calls that are nearer to the last wave, however many. -/
theorem next_remaining (ticketed : Ticketed l.state.flights l.state.dispatched)
    (step : Next limit l l') :
    Relation.CutExpand (· < ·) (remaining limit l') (remaining limit l) := by
  obtain ⟨f, under, catalog, e, outcome, rfl⟩ := step
  rw [take_eq ticketed under]
  let made := sent l.state.dispatched (f.wave + 1)
    (upshot limit catalog l.state.method e.leaders f outcome).calls
  refine ⟨(made.map fun g => limit - g.wave : List Nat), limit - f.wave, ?_, ?_⟩
  · intro n hn
    obtain ⟨g, hg, rfl⟩ := List.mem_map.mp (Multiset.mem_coe.mp hn)
    have := wave_of_upshot (call_of_sent hg)
    rw [wave_of_sent hg]
    omega
  · have split := (flights_perm ticketed.unique under).map fun g => limit - g.wave
    have before : remaining limit l = (limit - f.wave) ::ₘ
        ((others f l.state.flights).map fun g => limit - g.wave : List Nat) :=
      Multiset.coe_eq_coe.mpr split
    rw [before, remaining, List.map_append, ← Multiset.coe_add, add_comm _ {limit - f.wave},
      Multiset.singleton_add, Multiset.cons_add]

theorem acc_next (h : Acc (Relation.CutExpand (· < ·)) (remaining limit l))
    (ticketed : Ticketed l.state.flights l.state.dispatched) :
    Acc (fun after before : Ledger α δ => Next limit before after) l := by
  generalize hm : remaining limit l = m at h
  induction h generalizing l with
  | intro m _ ih =>
    subst hm
    refine .intro l fun l' step => ?_
    exact ih _ (next_remaining ticketed step) (next_ticketed ticketed step) rfl

theorem reached_acc {method : String} (h : Reached limit method requests l) :
    Acc (fun after before : Ledger α δ => Next limit before after) l :=
  acc_next ((wellFounded_lt.cutExpand).apply _) (reached_ticketed h)

/-- From a ledger that is accessible only finitely many outcomes can be taken. -/
theorem ends_of_acc (h : Acc (fun after before : Ledger α δ => Next limit before after) l)
    (run : Nat → Ledger α δ) (start : run 0 = l) : ∃ n, ¬ Next limit (run n) (run (n + 1)) := by
  induction h generalizing run with
  | intro l _ ih =>
    by_cases step : Next limit (run 0) (run 1)
    · obtain ⟨n, stuck⟩ := ih (run 1) (start ▸ step) (fun n => run (n + 1)) rfl
      exact ⟨n + 1, stuck⟩
    · exact ⟨0, step⟩

theorem finished_of_stuck (stuck : ∀ l', ¬ Next limit l l') : l.state.finished = true := by
  cases flights : l.state.flights with
  | nil => simp [finished, flights]
  | cons f rest =>
    have under : f ∈ l.state.flights := flights ▸ List.mem_cons_self
    exact absurd ⟨f, under, ∅, l.estimates, .error (.missing (.space 0)), rfl⟩ (stuck _)

/-- However far a request has come, it can be brought to its end. -/
theorem finishes_of_acc {allowed : Flight α → Except Fault (StorageReply δ) → Prop}
    {catalog : Catalog} (answers : ∀ f, ∃ outcome, allowed f outcome)
    (h : Acc (fun after before : Ledger α δ => Next limit before after) l) :
    ∃ l', Relation.ReflTransGen (Takes allowed limit catalog) l l' ∧
      l'.state.finished = true := by
  induction h with
  | intro l _ ih =>
    cases flights : l.state.flights with
    | nil => exact ⟨l, .refl, by simp [finished, flights]⟩
    | cons f rest =>
      obtain ⟨outcome, told⟩ := answers f
      have step : Takes allowed limit catalog l (l.take limit catalog l.estimates f outcome) :=
        ⟨f, flights ▸ List.mem_cons_self, outcome, told, rfl⟩
      obtain ⟨l', run, ended⟩ := ih _ step.next
      exact ⟨l', .head step run, ended⟩

theorem Line.at_most_one {earlier : List (Flight α)} {last : Flight α}
    (line : Line l host p earlier last) (traced : Traced limit requests l) :
    (carriers l.state.flights host p).length ≤ 1 := by
  have nodup : (carriers l.state.flights host p).Nodup :=
    (List.Nodup.of_map _ traced.ticketed.unique).filter _
  have only : carriers l.state.flights host p ⊆ [last] := by
    intro g hg
    obtain ⟨under, mine⟩ := mem_carriers.mp hg
    have carried : g ∈ earlier ++ [last] :=
      line.calls ▸ mem_carriers.mpr ⟨traced.under g under, mine⟩
    exact (List.mem_append.mp carried).resolve_left fun early => line.past g early under
  simpa using (nodup.subperm only).length_le

/-- Whatever the answers say, in whatever order they come and whatever other tasks do in
between: taking outcomes comes to an end, which is when no call is under way. Every call has
a ticket of its own, is of a wave below the limit and asks for partitions of the request it
descends from. Each partition of a request goes into one call of the first wave, then of the
second and so on, never two at once, and if it is not marked as failed at the end, then the
last of these calls was answered by a reply that does not name it. -/
theorem partitions_asked_in_turn (options : Options) {method : String}
    (reached : Reached options.waveLimit method requests l) :
    (∀ run : Nat → Ledger α δ, run 0 = l →
      ∃ n, ¬ Next options.waveLimit (run n) (run (n + 1))) ∧
    ((∀ l', ¬ Next options.waveLimit l l') → l.state.finished = true) ∧
    l.calls.map Flight.ticket = List.range l.state.dispatched ∧
    (∀ f ∈ l.calls, f.wave < max options.retryCount 1 ∧ ∃ r, requests.get? f.origin = some r ∧
      ∀ p ∈ f.request.partIds, p ∈ r.partIds) ∧
    ∀ host r p, requests.get? host = some r → p ∈ r.partIds →
      (carriers l.calls host p).map Flight.wave = List.range (carriers l.calls host p).length ∧
      (carriers l.calls host p).length ≤ max options.retryCount 1 ∧
      (carriers l.state.flights host p).length ≤ 1 ∧
      (l.state.finished = true → p ∉ l.state.failed.keys → ∃ last reply,
        (carriers l.calls host p).getLast? = some last ∧ ⟨last, .ok reply⟩ ∈ l.ended ∧
        p ∉ reply.failed.map PartFailure.part) := by
  have waves : 0 < options.waveLimit := by
    rw [Options.waveLimit]
    omega
  have traced := reached_traced waves reached
  refine ⟨ends_of_acc (reached_acc reached), finished_of_stuck, traced.tickets,
    fun f hf => ⟨traced.waves f hf, traced.own f hf⟩, fun host r p hr hp => ?_⟩
  obtain ⟨earlier, last, line⟩ := traced.line host r p hr hp
  have mine : last ∈ carriers l.calls host p := line.calls ▸ List.mem_append_right _ (by simp)
  have below := traced.waves last (mem_carriers.mp mine).1
  refine ⟨?_, ?_, line.at_most_one traced, fun finished unmarked => ?_⟩
  · rw [line.calls, line.waves, List.length_append, List.length_singleton]
  · have wave : last.wave = earlier.length := by
      have := congrArg List.getLast? line.waves
      simpa [List.range_succ] using this
    rw [line.calls, List.length_append, List.length_singleton, ← wave]
    exact below
  · cases line.fate with
    | under h =>
      have none : l.state.flights = [] := List.isEmpty_iff.mp finished
      rw [none] at h
      cases h
    | failed h => exact absurd h unmarked
    | answered reply told unlisted =>
      exact ⟨last, reply, by rw [line.calls, List.getLast?_concat], told, unlisted⟩

namespace Sample

open Scatter.Sample

def options : Options := { metaAddresses := [⟨"m", 9559⟩], localHost := ⟨"a", 1⟩, role := .graph }

/-- The first answer names one partition twice, with different leaders, and another one that
it was not asked for. -/
def server (host : Host) (_ : Batch Nat) (wave : Nat) : Except Fault (StorageReply Unit) :=
  if wave ≠ 0 then .ok ⟨[], 5, ()⟩
  else if host = far then .error (.rpcFailed (.reported "down"))
  else .ok ⟨[⟨1, .leaderChanged, some far⟩, ⟨3, .leaderChanged, none⟩, ⟨1, .leaderChanged, none⟩],
    5, ()⟩

def ended : Ledger Nat Unit :=
  played server options.waveLimit catalog (opened "getProps" asked Scatter.Sample.estimates)
    [0, 2, 1, 3]

theorem reached_ended : Reached options.waveLimit "getProps" asked ended :=
  reached_of_run (.start _) (played_run ..)

end Sample

theorem partitions_asked_in_turn_in_sample :
    Reached Sample.options.waveLimit "getProps" Scatter.Sample.asked Sample.ended ∧
    Sample.ended.calls.map Flight.host = [Scatter.Sample.near, Scatter.Sample.far,
      Scatter.Sample.near, Scatter.Sample.far] ∧
    (carriers Sample.ended.calls Scatter.Sample.near 1).map Flight.wave = [0, 1] ∧
    ∃ last reply, (carriers Sample.ended.calls Scatter.Sample.near 1).getLast? = some last ∧
      ⟨last, .ok reply⟩ ∈ Sample.ended.ended ∧
        (1 : PartId) ∉ reply.failed.map PartFailure.part := by
  have account := (partitions_asked_in_turn Sample.options Sample.reached_ended).2.2.2.2
    Scatter.Sample.near ⟨7, .ofList [(1, [10, 11]), (2, [20])]⟩ 1 rfl (by decide +kernel)
  have twice : (carriers Sample.ended.calls Scatter.Sample.near 1).length = 2 := by decide +kernel
  refine ⟨Sample.reached_ended, by decide +kernel, ?_, ?_⟩
  · rw [account.1, twice]
    rfl
  · exact account.2.2.2 (by decide +kernel) (by decide +kernel)

end Ledger

end ClusterClient.Scatter
