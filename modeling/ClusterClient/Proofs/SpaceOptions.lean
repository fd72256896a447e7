import ClusterClient.Proofs.Reloads
/-!
What the listener of a client is told about the options of the storage engine. A space hears of an
option when a new value for it is cached while the space has partitions here, and not when the
space comes to have them.
-/
namespace ClusterClient

theorem Binary64.beq_trans {x y z : Binary64} (h : (x == y) = true) (h' : (y == z) = true) :
    (x == z) = true := by
  simp only [BEq.beq, Bool.or_eq_true, Bool.and_eq_true, decide_eq_true_eq] at h h' ⊢
  rcases h with ⟨x_zero, y_zero⟩ | rfl
  · rcases h' with ⟨_, z_zero⟩ | rfl
    · exact .inl ⟨x_zero, z_zero⟩
    · exact .inl ⟨x_zero, y_zero⟩
  · exact h'

namespace Json

mutual

theorem same_trans (a : Json) {b c : Json} (h : same a b = true) (h' : same b c = true) :
    same a c = true := by
  cases a <;> cases b <;> simp only [same, Bool.false_eq_true] at h <;> cases c <;>
    simp only [same, Bool.false_eq_true] at h' ⊢
  case bool => exact (beq_iff_eq.mp h) ▸ h'
  case int => exact (beq_iff_eq.mp h) ▸ h'
  case real => exact Binary64.beq_trans h h'
  case text => exact (beq_iff_eq.mp h) ▸ h'
  case list items _ _ => exact sameItems_trans items h h'
  case object members _ _ => exact sameMembers_trans members h h'
termination_by structural a

theorem sameItems_trans (a : List Json) {b c : List Json} (h : sameItems a b = true)
    (h' : sameItems b c = true) : sameItems a c = true := by
  cases a <;> cases b <;> simp only [sameItems, Bool.false_eq_true] at h <;> cases c <;>
    simp only [sameItems, Bool.false_eq_true, Bool.and_eq_true] at h h' ⊢
  case cons.cons.cons first rest _ _ _ _ =>
    exact ⟨same_trans first h.1 h'.1, sameItems_trans rest h.2 h'.2⟩
termination_by structural a

theorem sameMembers_trans (a : List (String × Json)) {b c : List (String × Json)}
    (h : sameMembers a b = true) (h' : sameMembers b c = true) : sameMembers a c = true := by
  rcases a with _ | ⟨⟨k, first⟩, rest⟩ <;> cases b <;>
    simp only [sameMembers, Bool.false_eq_true] at h <;> cases c <;>
    simp only [sameMembers, Bool.false_eq_true, Bool.and_eq_true, beq_iff_eq] at h h' ⊢
  exact ⟨⟨h.1.1.trans h'.1.1, same_trans first h.1.2 h'.1.2⟩, sameMembers_trans rest h.2 h'.2⟩
termination_by structural a

end

/-- The values are one, or equal to one another as the client compares them. -/
def Alike (a b : Json) : Prop := a = b ∨ (a == b) = true

theorem alike_of_same {a b c : Json} (h : (a == b) = true) (h' : Alike b c) : Alike a c := by
  rcases h' with rfl | h'
  · exact .inr h
  · exact .inr (same_trans a h h')

theorem Alike.trans {a b c : Json} (h : Alike a b) (h' : Alike b c) : Alike a c := by
  rcases h with rfl | h
  · exact h'
  · exact alike_of_same h h'

theorem object_of_alike {a : Json} {members : List (String × Json)}
    (h : Alike a (.object members)) :
    ∃ members', a = .object members' := by
  rcases h with rfl | h
  · exact ⟨members, rfl⟩
  · cases a <;> first | exact ⟨_, rfl⟩ | cases h

end Json

namespace Notice

/-- The options that a table stands for. -/
def optionTable (members : List (String × Json)) : Table String String :=
  .ofList (members.map fun (k, j) => (k, optionText j))

variable {view next : LocalView} {space : SpaceId} {ns : List Notice}

theorem contains_of_applied? {n : Notice} (applied : applied? view n = some next)
    (other : n ≠ .spaceAdded space) (here : next.contains space = true) :
    view.contains space = true := by
  have updated : ∀ {space' : SpaceId} {parts : Table PartId (List Host)} {parts'},
      view.get? space' = some parts → (view.insert space' parts').contains space = true →
        view.contains space = true := by
    intro space' parts parts' present here
    rw [Table.contains, Table.get?_insert] at here
    by_cases eq : space = space'
    · rw [eq]
      exact Table.contains_of_get? present
    · rwa [if_neg eq] at here
  cases n with
  | optionsUpdated _ _ =>
    cases applied
    exact here
  | spaceAdded space' =>
    simp only [applied?] at applied
    split at applied
    · cases applied
    · cases applied
      have ne : space ≠ space' := fun eq => other (by rw [eq])
      rwa [Table.contains, Table.get?_insert, if_neg ne] at here
  | spaceRemoved space' =>
    simp only [applied?, Option.bind_eq_bind, Option.bind_eq_some_iff] at applied
    obtain ⟨parts, _, applied⟩ := applied
    split at applied
    · cases applied
      rw [Table.contains, Table.get?_erase] at here
      split at here
      · cases here
      · exact here
    · cases applied
  | partAdded p =>
    simp only [applied?, Option.bind_eq_bind, Option.bind_eq_some_iff] at applied
    obtain ⟨parts, present, applied⟩ := applied
    split at applied
    · cases applied
    · cases applied
      exact updated present here
  | partUpdated p =>
    simp only [applied?, Option.bind_eq_bind, Option.bind_eq_some_iff] at applied
    obtain ⟨parts, present, _, _, applied⟩ := applied
    split at applied
    · cases applied
    · cases applied
      exact updated present here
  | partRemoved space' part =>
    simp only [applied?, Option.bind_eq_bind, Option.bind_eq_some_iff] at applied
    obtain ⟨parts, present, applied⟩ := applied
    split at applied
    · cases applied
      exact updated present here
    · cases applied

/-- A space that is there after some notices was there before, unless it was announced. -/
theorem contains_of_replay (replayed : replay view ns = some next)
    (other : .spaceAdded space ∉ ns) (here : next.contains space = true) :
    view.contains space = true := by
  induction ns generalizing view with
  | nil =>
    cases replayed
    exact here
  | cons n ns ih =>
    rw [List.mem_cons, not_or] at other
    rw [replay, Option.bind_eq_some_iff] at replayed
    obtain ⟨between, applied, replayed⟩ := replayed
    exact contains_of_applied? applied (Ne.symm other.1) (ih replayed other.2)

theorem mem_changes {old new : LocalView} {n : Notice} (h : n ∈ changes old new) :
    ∀ space options, n ≠ .optionsUpdated space options := by
  rintro space options rfl
  simp only [changes, List.mem_append, List.mem_flatMap] at h
  rcases h with ⟨e, _, h⟩ | ⟨e, _, h⟩
  · split at h
    · cases h
    · simp [removal] at h
  · split at h
    · simp [arrival] at h
    · simp only [change, List.mem_append, List.mem_filterMap, List.mem_map] at h
      rcases h with ⟨_, _, h⟩ | ⟨_, _, h⟩
      · split at h
        · cases h
        · split at h <;> cases h
      · cases h

theorem newOptions?_eq_some_iff {old : Option ConfigItem} {item : ConfigItem}
    {options : Table String String} :
    newOptions? old item = some options ↔ ∃ members, item.value = .object members ∧
      (∀ before, old = some before → (before.value == item.value) = false) ∧
        options = optionTable members := by
  unfold newOptions?
  cases value : item.value with
  | object members =>
    cases old with
    | none => simpa [optionTable] using eq_comm
    | some before =>
      cases same : before.value == .object members with
      | true => simp [same]
      | false => simpa [same, optionTable] using eq_comm
  | _ => cases old <;> simp

theorem mem_optionChanges {old new : Configs} {spaces : List SpaceId} {n : Notice} :
    n ∈ optionChanges old new spaces ↔ ∃ name ∈ optionNames, ∃ item members,
      new.get? name = some item ∧ item.value = .object members ∧
        (∀ before, old.get? name = some before → (before.value == item.value) = false) ∧
          ∃ space ∈ spaces, n = .optionsUpdated space (optionTable members) := by
  simp only [optionChanges, List.mem_flatMap]
  refine exists_congr fun name => and_congr_right fun _ => ?_
  constructor
  · intro told
    split at told
    · cases told
    · rename_i item found
      split at told
      · cases told
      · rename_i options changed
        obtain ⟨members, value, differs, rfl⟩ := newOptions?_eq_some_iff.mp changed
        obtain ⟨space, here, rfl⟩ := List.mem_map.mp told
        exact ⟨item, members, found, value, differs, space, here, rfl⟩
  · rintro ⟨item, members, found, value, differs, space, here, rfl⟩
    have changed := newOptions?_eq_some_iff.mpr ⟨members, value, differs, rfl⟩
    simp only [found, changed]
    exact List.mem_map_of_mem here

end Notice

namespace Client

variable {c d : Client} {t : TaskId} {job : Job} {w : Work} {q : Query} {e : Event}
  {news : List Notice}

/-- The value that the client has cached for a configuration item. -/
def cachedValue (c : Client) (name : String) : Option Json :=
  (c.directory.configs.get? name).map ConfigItem.value

/-- What a step may do to what the listener is told, and to what that is about. -/
inductive Tidings (c d : Client) : Prop
  | nothing (directory : d.directory = c.directory) (notices : d.notices = c.notices)
  | replaced (catalog : Catalog) (h : Replaced c d catalog)
  | configured (items : List ConfigItem)
      (directory : d.directory = { c.directory with configs := .ofList items })
      (notices : d.notices = c.notices ++
        Notice.optionChanges c.directory.configs (.ofList items) c.localView.keys)

theorem Tidings.after {b : Client} (h : Tidings c b) (directory : d.directory = b.directory)
    (notices : d.notices = b.notices) : Tidings c d := by
  cases h with
  | nothing same told => exact .nothing (directory.trans same) (notices.trans told)
  | replaced catalog h =>
    exact .replaced catalog ⟨directory.trans h.directory, notices.trans h.notices⟩
  | configured items same told =>
    exact .configured items (directory.trans same) (notices.trans told)

/-- The step can as well be one of a client with the same caches. -/
theorem Tidings.before {b : Client} (h : Tidings c d) (directory : c.directory = b.directory)
    (notices : c.notices = b.notices) (later : Later b c) : Tidings b d := by
  have view : c.localView = b.localView := by
    rw [localView, directory, later.options, localView]
  cases h with
  | nothing same told => exact .nothing (same.trans directory) (told.trans notices)
  | replaced catalog h =>
    have news := newsOf_congr later.options later.listening directory catalog
    exact .replaced catalog ⟨directory ▸ h.directory, by rw [h.notices, notices, news]⟩
  | configured items same told =>
    exact .configured items (directory ▸ same) (by rw [told, notices, directory, view])

theorem install_tidings (c : Client) (catalog : Catalog) (hosts : List HostItem) :
    Tidings c (c.install catalog hosts) :=
  .replaced catalog (c.install_replaced catalog hosts).1

theorem configure_tidings (listening : c.listening = true) (items : List ConfigItem) :
    Tidings c (c.configure items) := by
  refine .configured items ?_ ?_
  · rw [configure, notify_eq]
  · rw [configure, notify_eq, if_pos listening]
    rfl

theorem Built.tidings {hosts : List HostItem} {built : List Space} {ids : List SpaceId}
    {progress : Progress} (h : Built c job w hosts built ids d progress) : Tidings c d := by
  have installed := c.install_tidings (.ofList built) hosts
  cases h with
  | next id rest => exact .nothing rfl rfl
  | data _ => exact installed
  | bare _ _ => exact installed.after rfl rfl
  | configs _ _ => exact installed

theorem Advancing.tidings {progress : Progress} (h : Advancing c job w d progress)
    (listening : c.listening = true) : Tidings c d := by
  cases h with
  | lists _ _ _ _ built _ => exact built.tidings
  | builds _ _ _ _ _ _ _ _ _ _ _ _ built => exact built.tidings
  | configures _ _ items _ => exact (configure_tidings listening items).after rfl rfl
  | _ => exact .nothing rfl rfl

theorem Answering.tidings {outcome : Except Fault (MetaReply q.Value)}
    (h : Answering c t q job w outcome d) (listening : c.listening = true) : Tidings c d := by
  cases h with
  | again _ _ _ => exact .nothing rfl rfl
  | pauses _ _ _ => exact .nothing rfl rfl
  | fails _ _ ending _ => exact .nothing ending.quiet.directory ending.quiet.notices
  | advances _ _ _ advancing _ =>
    have turned : Tidings c _ := (advancing.tidings listening).before rfl rfl ⟨rfl, rfl, id⟩
    exact turned.after rfl rfl
  | ends _ _ _ advancing ending _ =>
    have turned : Tidings c _ := (advancing.tidings listening).before rfl rfl ⟨rfl, rfl, id⟩
    exact turned.after ending.quiet.directory ending.quiet.notices

theorem step_tidings (listening : c.listening = true) (e : Event) :
    Tidings c (c.step e) ∨ Cleared c (c.step e) (c.subject e) := by
  have move := c.step_move e
  generalize c.step e = d at move
  have still : ∀ {t}, Steady c d ∨ Cleared c d t → Tidings c d ∨ Cleared c d t := fun h =>
    h.imp_left fun steady => .nothing steady.directory steady.notices
  cases move with
  | nothing => exact .inl (.nothing rfl rfl)
  | begins beginning => exact still beginning.steady
  | calls dialling => exact still (.inl dialling.steady)
  | wakes dialling => exact still (.inl dialling.steady)
  | resumes resuming => exact still resuming.steady
  | answers _ answering => exact .inl (answering.tidings listening)

/-- The option is not cached, or with a value that the client finds to be another one. -/
def Differs (c : Client) (name : String) (v : Json) : Prop :=
  ∀ u, c.cachedValue name = some u → (u == v) = false

/-- The option is not cached with that value, nor with one that is equal to it. -/
def Lacks (c : Client) (name : String) (v : Json) : Prop :=
  ∀ u, c.cachedValue name = some u → ¬ u.Alike v

/-- What a step tells about options: those of which it caches another value, to every space that
is here. -/
structure Passes (c d : Client) (news : List Notice) : Prop where
  notices : d.notices = c.notices ++ news
  told : ∀ space options, .optionsUpdated space options ∈ news →
    ∃ name ∈ Notice.optionNames, ∃ members, c.Differs name (.object members) ∧
      d.cachedValue name = some (.object members) ∧ options = Notice.optionTable members
  changed : ∀ name ∈ Notice.optionNames, ∀ members, c.Lacks name (.object members) →
    d.cachedValue name = some (.object members) → ∀ space, c.localView.contains space = true →
      .optionsUpdated space (Notice.optionTable members) ∈ news
  apart : ∀ space options, .optionsUpdated space options ∈ news → ∀ other, .spaceAdded other ∉ news

theorem passes_nothing (configs : d.directory.configs = c.directory.configs)
    (notices : d.notices = c.notices ++ news)
    (apart : ∀ n ∈ news, ∀ space options, n ≠ .optionsUpdated space options) : Passes c d news where
  notices := notices
  told space options told := absurd rfl (apart _ told space options)
  changed name _ members lacks after := by
    have same : d.cachedValue name = c.cachedValue name := by
      rw [cachedValue, configs, cachedValue]
    exact absurd (.inl rfl) (lacks _ (same ▸ after))
  apart space options told := absurd rfl (apart _ told space options)

theorem passes_configured {items : List ConfigItem}
    (directory : d.directory = { c.directory with configs := .ofList items })
    (notices : d.notices = c.notices ++
      Notice.optionChanges c.directory.configs (.ofList items) c.localView.keys) :
    Passes c d (Notice.optionChanges c.directory.configs (.ofList items) c.localView.keys) where
  notices := notices
  told space options told := by
    obtain ⟨name, listed, item, members, found, value, differs, _, _, same⟩ :=
      Notice.mem_optionChanges.mp told
    cases same
    refine ⟨name, listed, members, fun u cached => ?_, ?_, rfl⟩
    · obtain ⟨before, had, rfl⟩ := Option.map_eq_some_iff.mp cached
      exact value ▸ differs before had
    · rw [cachedValue, directory, found, ← value]
      rfl
  changed name listed members lacks after space here := by
    rw [cachedValue, directory] at after
    obtain ⟨item, found, value⟩ := Option.map_eq_some_iff.mp after
    refine Notice.mem_optionChanges.mpr ⟨name, listed, item, members, found, value, ?_, space,
      Table.mem_keys.mpr here, rfl⟩
    intro before had
    have other := lacks before.value (by rw [cachedValue, had]; rfl)
    rw [value]
    exact Bool.eq_false_iff.mpr fun same => other (.inr same)
  apart _ _ _ other told := by
    obtain ⟨_, _, _, _, _, _, _, _, _, same⟩ := Notice.mem_optionChanges.mp told
    cases same

theorem Tidings.passes (h : Tidings c d) : ∃ news, Passes c d news := by
  cases h with
  | nothing directory notices =>
    exact ⟨[], passes_nothing (by rw [directory]) (by rw [notices, List.append_nil]) (by simp)⟩
  | replaced catalog h =>
    refine ⟨_, passes_nothing (by rw [h.directory]) h.notices fun n told => ?_⟩
    unfold newsOf at told
    split at told
    · exact Notice.mem_changes told
    · cases told
  | configured items directory notices => exact ⟨_, passes_configured directory notices⟩

theorem Cleared.atRest (regular : Regular c)
    (h : Cleared c (c.step e) (c.subject e)) : AtRest (c.step e) := by
  have regular' := step_regular regular e
  have stopped := regular'.warned _ _ _ h.ended
  refine ⟨stopped, fun u busy => ?_, h.directory⟩
  have held := regular.holds (step_busy regular e stopped busy)
  rcases h.turn with free | own
  · cases free.symm.trans held
  · cases own.symm.trans held
    obtain ⟨_, _, task, _⟩ := busy
    cases task.symm.trans h.ended

theorem step_passes (regular : Regular c) (listening : c.listening = true)
    (going : ¬ AtRest (c.step e)) : ∃ news, Passes c (c.step e) news := by
  rcases step_tidings listening e with tidings | cleared
  · exact tidings.passes
  · exact absurd (cleared.atRest regular) going

theorem run_told (regular : Regular c) (listening : c.listening = true) (events : List Event)
    (going : ¬ AtRest (c.run events)) : ∃ news, (c.run events).notices = c.notices ++ news ∧
      Notice.replay c.localView news = some (c.run events).localView := by
  induction events generalizing c with
  | nil => exact ⟨[], (List.append_nil _).symm, rfl⟩
  | cons e events ih =>
    have regular' := step_regular regular e
    obtain ⟨later, told, leads⟩ := ih regular' ((c.step_later e).listening.trans listening) going
    rcases step_told listening e with ⟨news, first⟩ | cleared
    · refine ⟨news ++ later, ?_, ?_⟩
      · rw [← List.append_assoc, ← first.notices]
        exact told
      · rw [Notice.replay_append, first.leads]
        exact leads
    · exact absurd (run_atRest regular' (cleared.atRest regular) events).1 going

theorem prefix_of_append {α : Type} {told later earlier rest : List α} {a : α}
    (h : told ++ later = earlier ++ a :: rest) (other : a ∉ later) : earlier ++ [a] <+: told := by
  rcases List.append_eq_append_iff.mp h with ⟨x, _, rfl⟩ | ⟨x, rfl, there⟩
  · exact absurd (List.mem_append_right _ List.mem_cons_self) other
  · cases x with
    | nil =>
      rw [List.nil_append] at there
      exact absurd (there ▸ List.mem_cons_self) other
    | cons b x =>
      obtain ⟨rfl, _⟩ := List.cons_eq_cons.mp there
      exact ⟨x, by simp⟩

/-- Each notice of a run was told in one of its steps. -/
theorem told_by_step (regular : Regular c) (listening : c.listening = true) (events : List Event)
    (going : ¬ AtRest (c.run events)) {earlier later : List Notice} {n : Notice}
    (told : (c.run events).notices = c.notices ++ earlier ++ n :: later) :
    ∃ before e after u v, events = before ++ e :: after ∧
      Passes (c.run before) ((c.run before).step e) (u ++ n :: v) ∧
        (c.run before).notices ++ u = c.notices ++ earlier := by
  induction events using List.reverseRecOn generalizing later with
  | nil =>
    have none : earlier ++ n :: later = [] := by
      have told : c.notices ++ [] = c.notices ++ (earlier ++ n :: later) := by
        rw [List.append_nil, ← List.append_assoc]
        exact told
      exact (List.append_cancel_left told).symm
    simp at none
  | append_singleton events e ih =>
    rw [run_concat] at going told
    have regular' := run_regular regular events
    have goes : ¬ AtRest (c.run events) := fun rests => going (step_atRest regular' rests e).1
    have listening' := (c.run_later events).listening.trans listening
    obtain ⟨news, passes⟩ := step_passes regular' listening' going
    rw [passes.notices] at told
    rcases List.append_eq_append_iff.mp told with ⟨u, before, split⟩ | ⟨u, before, split⟩
    · exact ⟨events, e, [], u, later, rfl, split ▸ passes, before.symm⟩
    · cases u with
      | nil =>
        rw [List.append_nil] at before
        rw [List.nil_append] at split
        exact ⟨events, e, [], [], later, rfl, by rw [List.nil_append, split]; exact passes,
          by rw [List.append_nil, before]⟩
      | cons n' u =>
        rw [List.cons_append] at split
        obtain ⟨rfl, rest⟩ := List.cons_eq_cons.mp split
        obtain ⟨first, e', after, u', v, rfl, passes', same⟩ := ih goes before
        exact ⟨first, e', after ++ [e], u', v, by simp, passes', same⟩

/-- What comes to hold in a run comes to hold in one of its steps. -/
theorem run_switch {P : Client → Prop} (no : ¬ P c) {events : List Event}
    (yes : P (c.run events)) : ∃ before e after, events = before ++ e :: after ∧
      ¬ P (c.run before) ∧ P ((c.run before).step e) := by
  induction events using List.reverseRecOn with
  | nil => exact absurd yes no
  | append_singleton events e ih =>
    by_cases now : P (c.run events)
    · obtain ⟨before, e', after, rfl, not_yet, then_on⟩ := ih now
      exact ⟨before, e', after ++ [e], by simp, not_yet, then_on⟩
    · exact ⟨events, e, [], rfl, now, c.run_concat events e ▸ yes⟩

theorem AtRest.nowhere (h : AtRest c) (space : SpaceId) : c.localView.contains space = false := by
  rw [localView, h.empty]
  rfl

/-- What the listener is told about the options of a space that is here at the end of a run, from
the last time on that it was announced. -/
structure OptionNews (c : Client) (events : List Event) (space : SpaceId)
    (earlier since : List Notice) : Prop where
  notices : (c.run events).notices = earlier ++ .spaceAdded space :: since
  last : .spaceAdded space ∉ since
  told : ∀ options, .optionsUpdated space options ∈ since → ∃ before e after name members,
    events = before ++ e :: after ∧ earlier ++ [.spaceAdded space] <+: (c.run before).notices ∧
      name ∈ Notice.optionNames ∧ (c.run before).Differs name (.object members) ∧
        ((c.run before).step e).cachedValue name = some (.object members) ∧
          options = Notice.optionTable members
  changed : ∀ before e after name members, events = before ++ e :: after →
    earlier ++ [.spaceAdded space] <+: (c.run before).notices → name ∈ Notice.optionNames →
      (c.run before).Lacks name (.object members) →
        ((c.run before).step e).cachedValue name = some (.object members) →
          .optionsUpdated space (Notice.optionTable members) ∈ since
  current : ∀ before after name members, events = before ++ after →
    earlier ++ [.spaceAdded space] <+: (c.run before).notices → name ∈ Notice.optionNames →
      (c.run before).Lacks name (.object members) →
        (c.run events).cachedValue name = some (.object members) →
          ∃ members', (Json.object members').Alike (.object members) ∧
            .optionsUpdated space (Notice.optionTable members') ∈ since

section Since

variable {events : List Event} {space : SpaceId} {earlier since : List Notice}

/-- From its last announcement on the space is here, and what is told is told since then. -/
theorem here_since (regular : Regular c) (listening : c.listening = true)
    (here : (c.run events).localView.contains space = true)
    (notices : (c.run events).notices = earlier ++ .spaceAdded space :: since)
    (last : .spaceAdded space ∉ since) {before after : List Event}
    (split : events = before ++ after)
    (announced : earlier ++ [.spaceAdded space] <+: (c.run before).notices) :
    (c.run before).localView.contains space = true ∧ ∀ more,
      (c.run events).notices = (c.run before).notices ++ more → ∀ n ∈ more, n ∈ since := by
  have within : ∀ more, (c.run events).notices = (c.run before).notices ++ more →
      ∀ n ∈ more, n ∈ since := by
    intro more told n listed
    obtain ⟨rest, by_then⟩ := announced
    rw [told, ← by_then, List.append_assoc, List.append_assoc] at notices
    obtain rfl : rest ++ more = since := (List.cons.inj (List.append_cancel_left notices)).2
    exact List.mem_append_right _ listed
  refine ⟨?_, within⟩
  have going : ¬ AtRest (c.run events) := fun rests => by simp [rests.nowhere] at here
  subst split
  rw [run_append] at here going
  obtain ⟨more, told, leads⟩ := run_told (run_regular regular before)
    ((c.run_later before).listening.trans listening) after going
  have later := within more (by rw [run_append, told])
  exact Notice.contains_of_replay leads (fun again => last (later _ again)) here

theorem told_since (regular : Regular c) (listening : c.listening = true) (silent : c.notices = [])
    (going : ¬ AtRest (c.run events))
    (notices : (c.run events).notices = earlier ++ .spaceAdded space :: since)
    {options : Table String String} (told : .optionsUpdated space options ∈ since) :
    ∃ before e after name members, events = before ++ e :: after ∧
      earlier ++ [.spaceAdded space] <+: (c.run before).notices ∧ name ∈ Notice.optionNames ∧
        (c.run before).Differs name (.object members) ∧
          ((c.run before).step e).cachedValue name = some (.object members) ∧
            options = Notice.optionTable members := by
  obtain ⟨first, rest, rfl⟩ := List.append_of_mem told
  have split : (c.run events).notices =
      c.notices ++ (earlier ++ .spaceAdded space :: first) ++
        .optionsUpdated space options :: rest := by
    rw [notices, silent]
    simp
  obtain ⟨before, e, after, u, v, rfl, passes, by_then⟩ :=
    told_by_step regular listening events going split
  have here : .optionsUpdated space options ∈ u ++ .optionsUpdated space options :: v := by simp
  obtain ⟨name, listed, members, differs, cached, same⟩ := passes.told space options here
  refine ⟨before, e, after, name, members, rfl, ?_, listed, differs, cached, same⟩
  -- the announcement is not told in the same step, so it was told before
  rw [silent, List.nil_append] at by_then
  exact prefix_of_append by_then fun told =>
    passes.apart space options here space (List.mem_append_left _ told)

/-- In its last form for a space that is here, and the change of a value in it. -/
theorem changed_since (regular : Regular c) (listening : c.listening = true)
    (here : (c.run events).localView.contains space = true)
    (notices : (c.run events).notices = earlier ++ .spaceAdded space :: since)
    (last : .spaceAdded space ∉ since) {before after : List Event}
    (split : events = before ++ e :: after)
    (announced : earlier ++ [.spaceAdded space] <+: (c.run before).notices)
    {name : String} {members : List (String × Json)} (listed : name ∈ Notice.optionNames)
    (lacks : (c.run before).Lacks name (.object members))
    (cached : ((c.run before).step e).cachedValue name = some (.object members)) :
    .optionsUpdated space (Notice.optionTable members) ∈ since := by
  have going : ¬ AtRest (c.run events) := fun rests => by simp [rests.nowhere] at here
  obtain ⟨present, within⟩ := here_since regular listening here notices last split announced
  have at_step : c.run events = ((c.run before).step e).run after := by
    rw [split, run_append]
    rfl
  rw [at_step] at going
  have regular' := run_regular regular before
  have listening' := (c.run_later before).listening.trans listening
  have next_regular := step_regular regular' e
  have next_listening := ((c.run before).step_later e).listening.trans listening'
  obtain ⟨news, passes⟩ := step_passes (e := e) regular' listening' fun rests =>
    going (run_atRest next_regular rests after).1
  obtain ⟨later, told, _⟩ := run_told next_regular next_listening after going
  refine within (news ++ later) ?_ _
    (List.mem_append_left _ (passes.changed name listed members lacks cached space present))
  rw [at_step, told, passes.notices, List.append_assoc]

end Since

/-- A space with partitions here was announced. Since it was announced for the last time, the
listener has been told options for it just when a new value of one of the two items was cached, be
it by a load of its own or in a cycle: if a value in force at the end was not, at some moment since
then, the listener has been told it, up to what the client takes to be equal. A space that comes
to be here when the value is cached already is told nothing. -/
theorem options_passed_on {options : Options} {path : String} {choice : Nat} {disk : FileTree}
    (created : create options path true choice disk = .ok c) (events : List Event)
    {space : SpaceId} (here : (c.run events).localView.contains space = true) :
    ∃ earlier since, OptionNews c events space earlier since := by
  have regular := create_regular created
  have new := create_pristine created
  have going : ¬ AtRest (c.run events) := fun rests => by simp [rests.nowhere] at here
  obtain ⟨news, told, leads⟩ := run_told regular new.listening events going
  rw [new.notices, List.nil_append] at told
  have announced : .spaceAdded space ∈ (c.run events).notices := by
    by_contra never
    have before := Notice.contains_of_replay leads (told ▸ never) here
    rw [localView, new.directory] at before
    cases before
  obtain ⟨later, first, split, fresh⟩ := List.eq_append_cons_of_mem (List.mem_reverse.mpr announced)
  have notices : (c.run events).notices = first.reverse ++ .spaceAdded space :: later.reverse := by
    rw [← List.reverse_reverse (c.run events).notices, split]
    simp
  have last : .spaceAdded space ∉ later.reverse := fun again => fresh (List.mem_reverse.mp again)
  refine ⟨first.reverse, later.reverse, notices, last, fun options told => ?_,
    fun before e after name members split announced listed lacks cached => ?_,
    fun before after name members split announced listed lacks cached => ?_⟩
  · exact told_since regular new.listening new.notices going notices told
  · exact changed_since regular new.listening here notices last split announced listed lacks cached
  · have yes : ¬ (c.run events).Lacks name (.object members) := fun lacks =>
      lacks _ cached (.inl rfl)
    rw [split, run_append] at yes
    obtain ⟨until_then, e, rest, rfl, still, switched⟩ :=
      run_switch (P := fun d => ¬ d.Lacks name (.object members)) (not_not.mpr lacks) yes
    rw [← run_append] at still switched
    obtain ⟨u, cached', alike⟩ : ∃ u, ((c.run (before ++ until_then)).step e).cachedValue name =
        some u ∧ u.Alike (.object members) := by
      simpa [Lacks] using switched
    obtain ⟨members', rfl⟩ := Json.object_of_alike alike
    have lacks' : (c.run (before ++ until_then)).Lacks name (.object members') :=
      fun v had same => not_not.mp still v had (same.trans alike)
    have goes : ¬ AtRest ((c.run before).run until_then) := fun rests => going <| by
      rw [split, run_append, run_append]
      exact (run_atRest (run_regular (run_regular regular before) until_then) rests _).1
    obtain ⟨more, grown, _⟩ := run_told (run_regular regular before)
      ((c.run_later before).listening.trans new.listening) until_then goes
    have announced' : first.reverse ++ [.spaceAdded space] <+:
        (c.run (before ++ until_then)).notices := by
      rw [run_append, grown]
      exact announced.trans (List.prefix_append ..)
    exact ⟨members', alike, changed_since regular new.listening here notices last
      (by rw [split, List.append_assoc]) announced' listed lacks' cached'⟩

namespace Sample

def limits : List (String × Json) :=
  [("max_open_files", .int 100), ("stats_dump_period_sec", .text "200")]

def answered (t : TaskId) (q : Query) (v : q.Value) : List Event :=
  [.call t q, .answer t q 0 (.ok (.ok v))]

/-- A load of the configuration finds an option. -/
def configuring (t : TaskId) : List Event :=
  .invoke .loadConfig ::
    answered t .configs [⟨.storage, "rocksdb_db_options", .mutable, .object limits⟩]

/-- A load of data finds a space with a partition here. -/
def arriving (t : TaskId) : List Event :=
  .invoke .loadData :: answered t .spaces [⟨7, "nba"⟩] ++ answered t .hosts [] ++
    answered t .desc ⟨"nba", 1, 1, .int64, 8⟩ ++ answered t .parts (.ofList [(1, [⟨"a", 1⟩])]) ++
    answered t .tags [] ++ answered t .edges [] ++ answered t .tagIndexes [] ++
    answered t .edgeIndexes []

end Sample

/-- The configuration is loaded before the space is known, so the space is never told of it. -/
theorem new_space_not_told : ∃ c d, create Sample.storage "cluster.id" true 0 .empty = .ok c ∧
    d = c.run (Sample.configuring 0 ++ Sample.arriving 1) ∧
    d.task? 0 = some ⟨.loadConfig, .done (.ok .nothing)⟩ ∧
    d.task? 1 = some ⟨.loadData, .done (.ok .nothing)⟩ ∧
    d.cachedValue "rocksdb_db_options" = some (.object Sample.limits) ∧
    d.localView.contains 7 = true ∧
    ¬ ∃ earlier since, d.notices = earlier ++ .spaceAdded 7 :: since ∧
      .optionsUpdated 7 (Notice.optionTable Sample.limits) ∈ since := by
  refine ⟨_, _, rfl, rfl, rfl, rfl, rfl, by decide +kernel, ?_⟩
  rintro ⟨earlier, since, notices, told⟩
  have told := List.mem_append_right earlier (List.mem_cons_of_mem (.spaceAdded 7) told)
  rw [← notices] at told
  revert told
  decide +kernel

theorem options_passed_on_in_sample : ∃ c earlier since,
    create Sample.storage "cluster.id" true 0 .empty = .ok c ∧
    (c.run (Sample.arriving 0 ++ Sample.configuring 1)).localView.contains 7 = true ∧
    OptionNews c (Sample.arriving 0 ++ Sample.configuring 1) 7 earlier since ∧
    .optionsUpdated 7 (Notice.optionTable Sample.limits) ∈ since := by
  obtain ⟨new, created⟩ : ∃ c, create Sample.storage "cluster.id" true 0 .empty = .ok c := ⟨_, rfl⟩
  have here :
      (new.run (Sample.arriving 0 ++ Sample.configuring 1)).localView.contains 7 = true := by
    cases created
    decide +kernel
  obtain ⟨earlier, since, news⟩ := options_passed_on created _ here
  refine ⟨new, earlier, since, created, here, news, ?_⟩
  have all : (new.run (Sample.arriving 0 ++ Sample.configuring 1)).notices =
      [.spaceAdded 7, .partAdded ⟨7, 1, [⟨"a", 1⟩]⟩,
        .optionsUpdated 7 (Notice.optionTable Sample.limits)] := by
    cases created
    decide +kernel
  have notices := all.symm.trans news.notices
  cases earlier with
  | nil =>
    cases notices
    simp
  | cons n earlier =>
    have again : Notice.spaceAdded 7 ∈ (n :: earlier ++ .spaceAdded 7 :: since).tail := by simp
    rw [← notices] at again
    simp at again


end Client

end ClusterClient
