import ClusterClient.FileTree
import ClusterClient.Table.Lemmas
/-!
What files that come and go leave as it was: all directories stay, so a path that led
somewhere leads to the same place.
-/
namespace ClusterClient.FileTree

theorem lookup_setEntry (name : String) (t : FileTree) (entries : List (String × FileTree))
    (other : String) :
    (setEntry name t entries).lookup other =
      if other = name then some t else entries.lookup other := by
  induction entries with
  | nil => by_cases same : other = name <;> simp [setEntry, Table.lookup_cons_ite, same]
  | cons e rest ih =>
    by_cases here : e.1 = name
    · subst here
      by_cases same : other = e.1 <;> simp [setEntry, Table.lookup_cons_ite, same]
    · simp only [setEntry, if_neg here, Table.lookup_cons_ite, ih]
      by_cases same : other = e.1
      · simp [same, here]
      · simp [same]

theorem lookup_drop (name : String) (entries : List (String × FileTree)) (other : String) :
    (entries.filter fun e => e.1 != name).lookup other =
      if other = name then none else entries.lookup other := by
  induction entries with
  | nil => simp
  | cons e rest ih =>
    by_cases here : e.1 = name
    · subst here
      rw [List.filter_cons_of_neg (by simp), ih, Table.lookup_cons_ite]
      by_cases same : other = e.1 <;> simp [same]
    · rw [List.filter_cons_of_pos (by simpa using here), Table.lookup_cons_ite, ih,
        Table.lookup_cons_ite]
      by_cases same : other = e.1
      · simp [same, here]
      · simp [same]

theorem lookup_change (name : String) (change : FileTree → FileTree)
    (entries : List (String × FileTree)) (other : String) :
    (entries.map fun e => if e.1 = name then (e.1, change e.2) else e).lookup other =
      if other = name then (entries.lookup other).map change else entries.lookup other := by
  induction entries with
  | nil => simp
  | cons e rest ih =>
    rw [List.map_cons, Table.lookup_cons_ite, ih, Table.lookup_cons_ite]
    by_cases here : e.1 = name
    · subst here
      by_cases same : other = e.1 <;> simp [same]
    · by_cases same : other = e.1
      · simp [same, here]
      · simp [same, here]

/-- All directories of one tree are directories of the other one. -/
def Keeps (t t' : FileTree) : Prop :=
  ∀ q entries, node q t = .ok (directory entries) → ∃ entries', node q t' = .ok (directory entries')

theorem node_cons {name : String} {rest : Place} {entries : List (String × FileTree)} :
    node (name :: rest) (directory entries) =
      match entries.lookup name with
      | none => .error .notFound
      | some t => node rest t := rfl

theorem node_file_ne_directory {q : Place} {content : Bytes} {entries : List (String × FileTree)} :
    node q (file content) ≠ .ok (directory entries) := by
  cases q <;> exact fun h => by cases h

theorem Keeps.refl (t : FileTree) : Keeps t t := fun _ entries here => ⟨entries, here⟩

theorem Keeps.trans {t t' t'' : FileTree} (first : Keeps t t') (second : Keeps t' t'') :
    Keeps t t'' := by
  intro q entries here
  obtain ⟨entries', here⟩ := first q entries here
  exact second q entries' here

theorem keeps_file (content : Bytes) (t : FileTree) : Keeps (file content) t :=
  fun _ _ here => absurd here node_file_ne_directory

theorem keeps_directory {all all' : List (String × FileTree)}
    (each : ∀ name t, all.lookup name = some t →
      (∃ content, t = file content) ∨ ∃ t', all'.lookup name = some t' ∧ Keeps t t') :
    Keeps (directory all) (directory all') := by
  intro q entries here
  cases q with
  | nil => exact ⟨_, rfl⟩
  | cons name q =>
    rw [node_cons] at here ⊢
    cases there : all.lookup name with
    | none =>
      rw [there] at here
      cases here
    | some t =>
      rw [there] at here
      rcases each name t there with ⟨content, rfl⟩ | ⟨t', found, keeps⟩
      · exact absurd here node_file_ne_directory
      · rw [found]
        exact keeps q entries here

/-- A node that is put where no directory was takes no directory away. -/
theorem put_keeps {p : Place} {t : FileTree}
    (vacant : ∀ entries, node p t ≠ .ok (directory entries)) (new : FileTree) :
    Keeps t (put p new t) := by
  induction p generalizing t with
  | nil =>
    cases t with
    | file content => exact keeps_file content _
    | directory entries => exact absurd rfl (vacant entries)
  | cons name rest ih =>
    cases t with
    | file content => exact keeps_file content _
    | directory all =>
      refine keeps_directory fun other t there => .inr ?_
      rw [lookup_setEntry]
      by_cases same : other = name
      · subst same
        rw [if_pos rfl, there]
        refine ⟨_, rfl, ih fun entries below => vacant entries ?_⟩
        rw [node_cons, there]
        exact below
      · rw [if_neg same]
        exact ⟨t, there, .refl t⟩

theorem remove_cons (name : String) (rest : Place) (entries : List (String × FileTree)) :
    ∃ entries', remove (name :: rest) (directory entries) = directory entries' ∧
      ∀ other, entries'.lookup other =
        if other = name then
          if rest = [] then none else (entries.lookup other).map (remove rest)
        else entries.lookup other := by
  cases rest with
  | nil => exact ⟨_, rfl, lookup_drop name entries⟩
  | cons next rest => exact ⟨_, rfl, lookup_change name (remove (next :: rest)) entries⟩

/-- A file that is removed takes no directory with it. -/
theorem remove_keeps {p : Place} {t : FileTree} {content : Bytes}
    (file_at : node p t = .ok (file content)) : Keeps t (remove p t) := by
  induction p generalizing t with
  | nil =>
    cases file_at
    exact keeps_file content _
  | cons name rest ih =>
    cases t with
    | file other => cases file_at
    | directory all =>
      obtain ⟨left, removed, found⟩ := remove_cons name rest all
      rw [removed]
      refine keeps_directory fun other t there => ?_
      rw [found]
      by_cases same : other = name
      · subst same
        rw [node_cons, there] at file_at
        rw [if_pos rfl]
        cases rest with
        | nil => exact .inl ⟨content, Except.ok.inj file_at⟩
        | cons next rest =>
          rw [if_neg (List.cons_ne_nil _ _), there]
          exact .inr ⟨_, rfl, ih file_at⟩
      · rw [if_neg same]
        exact .inr ⟨t, there, .refl t⟩

/-- Where no file is in the way, what is put is there. -/
theorem node_put_self {p : Place} {t : FileTree} (clear : node p t ≠ .error .notDirectory)
    (new : FileTree) : node p (put p new t) = .ok new := by
  induction p generalizing t with
  | nil => rfl
  | cons name rest ih =>
    cases t with
    | file content => exact absurd rfl clear
    | directory entries =>
      rw [put, node_cons, lookup_setEntry, if_pos rfl]
      rw [node_cons] at clear
      cases there : entries.lookup name with
      | none =>
        refine ih ?_
        cases rest <;> exact fun h => by cases h
      | some t =>
        rw [there] at clear
        exact ih clear

/-- A removal puts nothing anywhere. -/
theorem node_remove (p q : Place) (t : FileTree) :
    node q (remove p t) = .error .notFound ∨
      (∃ entries entries', node q t = .ok (directory entries) ∧
        node q (remove p t) = .ok (directory entries')) ∨
      node q (remove p t) = node q t := by
  induction p generalizing q t with
  | nil => cases t <;> exact .inr (.inr rfl)
  | cons name rest ih =>
    cases t with
    | file content => cases rest <;> exact .inr (.inr rfl)
    | directory all =>
      obtain ⟨left, removed, found⟩ := remove_cons name rest all
      rw [removed]
      cases q with
      | nil => exact .inr (.inl ⟨_, _, rfl, rfl⟩)
      | cons other q =>
        rw [node_cons, node_cons, found]
        by_cases same : other = name
        · rw [if_pos same]
          split
          · exact .inl rfl
          · rename_i t there
            split at there
            · cases there
            · obtain ⟨t, own, rfl⟩ := Option.map_eq_some_iff.mp there
              rw [own]
              exact ih q t
        · rw [if_neg same]
          exact .inr (.inr rfl)

/-- No more than a file is at the place, and none is in its way. -/
def Free (p : Place) (t : FileTree) : Prop :=
  (∃ content, node p t = .ok (file content)) ∨ node p t = .error .notFound

theorem Free.put {p : Place} {t : FileTree} (free : Free p t) (new : FileTree) :
    Keeps t (put p new t) ∧ node p (put p new t) = .ok new := by
  constructor
  · refine put_keeps (fun entries there => ?_) new
    rcases free with ⟨content, here⟩ | none
    · cases here.symm.trans there
    · cases none.symm.trans there
  · refine node_put_self (fun there => ?_) new
    rcases free with ⟨content, here⟩ | none
    · cases here.symm.trans there
    · cases none.symm.trans there

theorem Free.remove {p : Place} {t : FileTree} (free : Free p t) (q : Place) :
    Free p (remove q t) := by
  rcases node_remove q p t with gone | ⟨_, _, old, _⟩ | same
  · exact .inr gone
  · rcases free with ⟨content, here⟩ | none
    · cases here.symm.trans old
    · cases none.symm.trans old
  · rw [Free, same]
    exact free

/-! ## Steps -/

/-- The place that steps lead to, found anew from the root at every step. -/
def walk (t : FileTree) : List String → List Path.Step → Except DiskFault Place
  | names, [] => .ok names.reverse
  | names, step :: rest =>
    match node names.reverse t with
    | .error e => .error e
    | .ok (file _) => .error .notDirectory
    | .ok (directory _) =>
      match step with
      | .into name =>
        if nameLimit < name.utf8ByteSize then .error .nameTooLong
        else walk t (name :: names) rest
      | .up => walk t names.tail rest

/-- These are the directories that a place is in, the nearest first. -/
inductive Above (t : FileTree) : List String → List FileTree → Prop
  | root : Above t [] []
  | into {names : List String} {above : List FileTree} {entries : List (String × FileTree)}
      (higher : Above t names above) (here : node names.reverse t = .ok (directory entries))
      (name : String) : Above t (name :: names) (directory entries :: above)

theorem node_append (p q : Place) (t : FileTree) :
    node (p ++ q) t = (node p t).bind (node q) := by
  induction p generalizing t with
  | nil => rfl
  | cons name rest ih =>
    cases t with
    | file content => rfl
    | directory entries =>
      rw [List.cons_append, node_cons, node_cons]
      cases entries.lookup name with
      | none => rfl
      | some t => exact ih t

/-- This is at a place, or nothing is. -/
def IsAt (t : FileTree) (names : List String) : Option FileTree → Prop
  | some here => node names.reverse t = .ok here
  | none => node names.reverse t = .error .notFound

theorem IsAt.into {t : FileTree} {names : List String} {entries : List (String × FileTree)}
    (here : node names.reverse t = .ok (directory entries)) (name : String) :
    IsAt t (name :: names) (entries.lookup name) := by
  have next : node (name :: names).reverse t = node [name] (directory entries) := by
    rw [List.reverse_cons, node_append, here]
    rfl
  rw [node_cons] at next
  cases found : entries.lookup name <;> rw [found] at next <;> exact next

theorem follow_eq_walk {t : FileTree} {names : List String} {above : List FileTree}
    {here : Option FileTree} (higher : Above t names above) (there : IsAt t names here)
    (steps : List Path.Step) : follow names above here steps = walk t names steps := by
  induction steps generalizing names above here with
  | nil => rfl
  | cons step rest ih =>
    unfold walk
    cases here with
    | none =>
      rw [show node names.reverse t = _ from there]
      rfl
    | some found =>
      rw [show node names.reverse t = _ from there]
      cases found with
      | file content => rfl
      | directory entries =>
        cases step with
        | into name =>
          simp only [follow, ih (.into higher there name) (.into there name)]
        | up =>
          cases higher with
          | root => exact ih .root there
          | into higher here name => exact ih higher here

theorem place_eq_walk (t : FileTree) (path : Path) :
    t.place path = match path.fault? with
      | some e => .error e
      | none => walk t [] path.steps := by
  have root : IsAt t [] (some t) := rfl
  cases fault : path.fault? with
  | some e => simp only [place, fault]
  | none =>
    simp only [place, fault]
    exact follow_eq_walk .root root path.steps

theorem Keeps.walk {t t' : FileTree} (keeps : Keeps t t') {names : List String}
    {steps : List Path.Step} {p : Place} (leads : t.walk names steps = .ok p) :
    t'.walk names steps = .ok p := by
  induction steps generalizing names with
  | nil => exact leads
  | cons step rest ih =>
    unfold FileTree.walk at leads ⊢
    split at leads
    · cases leads
    · cases leads
    · rename_i entries here
      obtain ⟨entries', here'⟩ := keeps _ entries here
      rw [here']
      cases step with
      | into name =>
        simp only at leads ⊢
        split at leads
        · cases leads
        · rename_i short
          rw [if_neg short]
          exact ih leads
      | up => exact ih leads

/-- Where directories stay, a path leads where it led. -/
theorem Keeps.place {t t' : FileTree} (keeps : Keeps t t') {path : Path} {p : Place}
    (leads : t.place path = .ok p) : t'.place path = .ok p := by
  rw [place_eq_walk] at leads ⊢
  split at leads
  · cases leads
  · exact keeps.walk leads

/-! ## Writing and moving -/

theorem write_eq {t t' : FileTree} {path : Path} {content : Bytes}
    (written : t.write path content = .ok t') :
    ∃ p, t.place path = .ok p ∧ Free p t ∧ t' = put p (file content) t := by
  unfold write at written
  split at written
  · cases written
  · rename_i p leads
    refine ⟨p, leads, ?_⟩
    split at written
    · cases written
    · rename_i old here
      split at written <;> cases written
      exact ⟨.inl ⟨old, here⟩, rfl⟩
    · rename_i none
      split at written <;> cases written
      exact ⟨.inr none, rfl⟩
    · cases written

/-- A file that could be written is where its path leads. -/
theorem write_ok {t t' : FileTree} {path : Path} {content : Bytes}
    (written : t.write path content = .ok t') :
    ∃ p, t'.place path = .ok p ∧ node p t' = .ok (file content) := by
  obtain ⟨p, leads, free, rfl⟩ := write_eq written
  obtain ⟨keeps, here⟩ := free.put (file content)
  exact ⟨p, keeps.place leads, here⟩

theorem ending_of_write {t t' : FileTree} {path : Path} {content : Bytes}
    (written : t.write path content = .ok t') : path.ending = .nothing := by
  unfold write at written
  split at written
  · cases written
  · split at written
    · cases written
    · split at written
      · assumption
      · cases written
    · split at written
      · assumption
      · cases written
    · cases written

/-- What could be written is read back by the same path. -/
theorem read_write {t t' : FileTree} {path : Path} {content : Bytes}
    (written : t.write path content = .ok t') : t'.read path = .ok content := by
  obtain ⟨p, leads, here⟩ := write_ok written
  simp only [read, leads, here, ending_of_write written, if_true]

theorem replace_eq {t t' : FileTree} {source target : Place} {content : Bytes}
    (here : node source t = .ok (file content)) (moved : t.replace source target = .ok t') :
    Free target t ∧
      t' = if source = target then t else put target (file content) (remove source t) := by
  unfold replace at moved
  rw [here] at moved
  split at moved
  · cases moved
  · cases moved
  · rename_i old found there
    cases found
    refine ⟨.inl ⟨old, there⟩, ?_⟩
    split at moved <;> cases moved <;> simp [*]
  · rename_i found none
    cases found
    refine ⟨.inr none, ?_⟩
    split at moved <;> cases moved <;> simp [*]
  · cases moved

theorem replace_ok {t t' : FileTree} {source target : Place} {content : Bytes}
    (here : node source t = .ok (file content)) (moved : t.replace source target = .ok t') :
    Keeps t t' ∧ node target t' = .ok (file content) := by
  obtain ⟨free, rfl⟩ := replace_eq here moved
  split
  · rename_i same
    exact ⟨.refl t, same ▸ here⟩
  · obtain ⟨keeps, there⟩ := (free.remove source).put (file content)
    exact ⟨(remove_keeps here).trans keeps, there⟩

theorem move_eq {t t' : FileTree} {source target : Path} {p : Place}
    (leads : t.place source = .ok p) (moved : t.move source target = .ok t') :
    ∃ q, t.place target = .ok q ∧ target.ending = .nothing ∧ t.replace p q = .ok t' := by
  unfold move at moved
  split at moved
  · cases moved
  · cases moved
  · cases moved
  · rename_i source' q noFault leads' leadsThere
    cases leads.symm.trans leads'
    split at moved
    · rename_i ending
      exact ⟨q, leadsThere, ending, moved⟩
    · cases moved
    · split at moved <;> cases moved

theorem replace_self {t : FileTree} {p : Place} {content : Bytes}
    (here : node p t = .ok (file content)) : t.replace p p = .ok t := by
  simp [replace, here]

theorem move_eq_replace {t : FileTree} {source target : Path} {p q : Place}
    (leads : t.place source = .ok p) (leadsThere : t.place target = .ok q)
    (noFault : target.fault? = none) (ending : target.ending = .nothing) :
    t.move source target = t.replace p q := by
  simp only [move, noFault, leads, leadsThere, ending]

/-- A file that could be moved is where the other path leads. -/
theorem move_ok {t t' : FileTree} {source target : Path} {content : Bytes} {p : Place}
    (leads : t.place source = .ok p) (here : node p t = .ok (file content))
    (moved : t.move source target = .ok t') : t'.read target = .ok content := by
  obtain ⟨q, leadsThere, ending, replaced⟩ := move_eq leads moved
  obtain ⟨keeps, there⟩ := replace_ok here replaced
  simp only [read, keeps.place leadsThere, there, ending, if_true]

end ClusterClient.FileTree
