import ClusterClient.Proofs.Disk.Steps
/-!
What there is at each place, and which places are left as they were when a file is put or
removed and when directories are made.
-/
namespace ClusterClient.FileTree

/-- What there is at a place: a file with its content, or a directory. -/
def look (q : Place) (t : FileTree) : Option (Option Bytes) :=
  match node q t with
  | .ok (file content) => some (some content)
  | .ok (directory _) => some none
  | .error _ => none

theorem look_cons (name : String) (rest : Place) (entries : List (String × FileTree)) :
    look (name :: rest) (directory entries) = (entries.lookup name).bind (look rest) := by
  rw [look, node_cons]
  cases entries.lookup name <;> rfl

theorem look_of_node {q : Place} {t : FileTree} {entries : List (String × FileTree)}
    (here : node q t = .ok (directory entries)) : look q t = some none := by
  rw [look, here]

theorem look_eq_directory {q : Place} {t : FileTree} :
    look q t = some none ↔ ∃ entries, node q t = .ok (directory entries) := by
  constructor
  · intro seen
    unfold look at seen
    split at seen
    · cases seen
    · rename_i entries here
      exact ⟨entries, here⟩
    · cases seen
  · exact fun ⟨_, here⟩ => look_of_node here

theorem Keeps.look {t t' : FileTree} (keeps : Keeps t t') {q : Place}
    (seen : FileTree.look q t = some none) : FileTree.look q t' = some none := by
  obtain ⟨entries, here⟩ := look_eq_directory.mp seen
  exact look_eq_directory.mpr (keeps q entries here)

theorem Free.look {p : Place} {t : FileTree} (free : Free p t) :
    FileTree.look p t ≠ some none := by
  intro seen
  obtain ⟨entries, here⟩ := look_eq_directory.mp seen
  rcases free with ⟨content, there⟩ | none
  · cases here.symm.trans there
  · cases here.symm.trans none

/-- Nothing is beyond a place that is free. -/
theorem Free.look_append {p : Place} {t : FileTree} (free : Free p t) (name : String)
    (rest : Place) : FileTree.look (p ++ name :: rest) t = none := by
  rw [FileTree.look, node_append]
  rcases free with ⟨content, here⟩ | none
  · rw [here]
    rfl
  · rw [none]
    rfl

/-- What is put where nothing was but perhaps a file changes no other place, unless it brings
something with it. -/
theorem look_put {home : Place} {name : String} {t new : FileTree}
    {entries : List (String × FileTree)} (within : node home t = .ok (directory entries))
    (free : Free (home ++ [name]) t) (bare : ∀ next rest, look (next :: rest) new = none)
    {q : Place} (other : q ≠ home ++ [name]) : look q (put (home ++ [name]) new t) = look q t := by
  induction home generalizing t q with
  | nil =>
    cases within
    cases q with
    | nil => rfl
    | cons first q =>
      rw [List.nil_append, put, put, look_cons, look_cons, lookup_setEntry]
      by_cases same : first = name
      · subst same
        cases q with
        | nil => exact absurd rfl other
        | cons next rest =>
          rw [if_pos rfl, Option.bind_some, bare, ← look_cons]
          exact (free.look_append next rest).symm
      · rw [if_neg same]
  | cons above home ih =>
    cases t with
    | file content => cases within
    | directory all =>
      rw [node_cons] at within
      cases found : all.lookup above with
      | none =>
        rw [found] at within
        cases within
      | some inner =>
        rw [found] at within
        cases q with
        | nil => rfl
        | cons first q =>
          rw [List.cons_append, put, look_cons, look_cons, lookup_setEntry]
          by_cases same : first = above
          · subst same
            have below : Free (home ++ [name]) inner := by
              rw [Free, List.cons_append, node_cons, found] at free
              exact free
            rw [if_pos rfl, found]
            exact ih within below fun eq => other (by rw [eq, List.cons_append])
          · rw [if_neg same]

/-- A file that is removed is missed at no other place. -/
theorem look_remove {p : Place} {t : FileTree} {content : Bytes}
    (here : node p t = .ok (file content)) {q : Place} (other : q ≠ p) :
    look q (remove p t) = look q t := by
  induction p generalizing t q with
  | nil => cases t <;> rfl
  | cons name rest ih =>
    cases t with
    | file other => cases here
    | directory all =>
      obtain ⟨left, removed, found⟩ := remove_cons name rest all
      rw [removed]
      cases q with
      | nil => rfl
      | cons first q =>
        rw [look_cons, look_cons, found]
        by_cases same : first = name
        · subst same
          rw [node_cons] at here
          cases there : all.lookup first with
          | none =>
            rw [there] at here
            cases here
          | some inner =>
            rw [there] at here
            rw [if_pos rfl]
            cases rest with
            | nil =>
              cases here
              cases q with
              | nil => exact absurd rfl other
              | cons next q => rfl
            | cons next rest =>
              rw [if_neg (List.cons_ne_nil _ _)]
              exact ih here fun eq => other (by rw [eq])
        · rw [if_neg same]

/-- A file that is moved changes only the place it comes from and the one it goes to. -/
theorem look_replace {source home : Place} {name : String} {t t' : FileTree} {content : Bytes}
    {entries : List (String × FileTree)} (here : node source t = .ok (file content))
    (within : node home t = .ok (directory entries))
    (moved : t.replace source (home ++ [name]) = .ok t') {q : Place} (other : q ≠ home ++ [name]) :
    (q ≠ source → look q t' = look q t) ∧ (q = source → look q t' ≠ some none) := by
  obtain ⟨free, rfl⟩ := replace_eq here moved
  by_cases same : source = home ++ [name]
  · rw [if_pos same]
    exact ⟨fun _ => rfl, fun eq => absurd (eq.trans same) other⟩
  · obtain ⟨entries', within'⟩ := remove_keeps here home entries within
    rw [if_neg same, look_put within' (free.remove source) (fun _ _ => rfl) other]
    refine ⟨look_remove here, fun eq => ?_⟩
    have left : Free source t := .inl ⟨content, here⟩
    exact eq ▸ (left.remove source).look

/-! ## Directories on the way -/

theorem makeDirectory_eq {t t' : FileTree} {path : Path} (made : t.makeDirectory path = .ok t') :
    t' = t ∨ ∃ p, t.place path = .ok p ∧ node p t = .error .notFound ∧ t' = put p empty t := by
  unfold makeDirectory at made
  split at made
  · cases made
  · rename_i p leads
    split at made
    · exact .inl (Except.ok.inj made).symm
    · cases made
    · rename_i missing
      exact .inr ⟨p, leads, missing, (Except.ok.inj made).symm⟩
    · cases made

theorem makeDirectory_notFound {t : FileTree} {path : Path}
    (fails : t.makeDirectory path = .error .notFound) : t.place path = .error .notFound := by
  unfold makeDirectory at fails
  split at fails
  · rename_i e lost
    cases fails
    exact lost
  · split at fails
    · cases fails
    · cases fails
    · cases fails
    · rename_i other _
      cases fails
      exact absurd rfl other

/-- What each directory that is made keeps is kept by all of them, even if not all of them can
be made. -/
theorem makeAll_preserves {path : Path} {P : FileTree → Prop} {count : Nat}
    (each : ∀ k, 0 < k → k ≤ count → ∀ t t', P t → t.makeDirectory (path.upTo k) = .ok t' → P t')
    {t : FileTree} (before : P t) : P (makeAll path count t).1 := by
  induction count generalizing t with
  | zero => exact before
  | succ count ih =>
    have last := each (count + 1) (Nat.succ_pos count) (Nat.le_refl _)
    have earlier : P (makeAll path count t).1 :=
      ih (fun k positive below => each k positive (Nat.le_succ_of_le below)) before
    unfold makeAll
    split
    · rename_i t' made
      exact last t t' before made
    · split
      · rename_i stopped
        rw [stopped] at earlier
        exact earlier
      · rename_i t' reached
        rw [reached] at earlier
        split
        · rename_i made
          exact last t' _ earlier made
        · exact earlier
    · exact before

/-- One tree has grown out of another by new directories only, each where one of these paths
leads. -/
structure Grown (paths : Path → Prop) (t t' : FileTree) : Prop where
  keeps : Keeps t t'
  look : ∀ q, look q t' = look q t ∨
    look q t = none ∧ look q t' = some none ∧ ∃ path, paths path ∧ t'.place path = .ok q

theorem Grown.refl (paths : Path → Prop) (t : FileTree) : Grown paths t t :=
  ⟨.refl t, fun _ => .inl rfl⟩

theorem Grown.trans {paths : Path → Prop} {t t' t'' : FileTree} (first : Grown paths t t')
    (second : Grown paths t' t'') : Grown paths t t'' := by
  refine ⟨first.keeps.trans second.keeps, fun q => ?_⟩
  rcases second.look q with same | ⟨missing, made, path, listed, leads⟩
  · rcases first.look q with same' | ⟨missing, made, path, listed, leads⟩
    · exact .inl (same.trans same')
    · exact .inr ⟨missing, same.trans made, path, listed, second.keeps.place leads⟩
  · rcases first.look q with same' | ⟨_, made', _⟩
    · exact .inr ⟨same' ▸ missing, made, path, listed, leads⟩
    · cases missing.symm.trans made'

theorem makeDirectory_grown {paths : Path → Prop} {path : Path} (listed : paths path)
    {t t' : FileTree} (made : t.makeDirectory path = .ok t') : Grown paths t t' := by
  rcases makeDirectory_eq made with rfl | ⟨p, leads, missing, rfl⟩
  · exact .refl paths t'
  · obtain ⟨home, name, entries, rfl, within⟩ := within_of_missing leads missing
    have free : Free (home ++ [name]) t := .inr missing
    obtain ⟨keeps, here⟩ := free.put empty
    refine ⟨keeps, fun q => ?_⟩
    by_cases same : q = home ++ [name]
    · subst same
      refine .inr ⟨?_, look_of_node here, path, listed, keeps.place leads⟩
      rw [FileTree.look, missing]
    · exact .inl (look_put within free (fun _ _ => rfl) same)

/-- The paths to the directories that a path leads through. -/
def Parent (path other : Path) : Prop := ∃ count < path.steps.length, other = path.upTo count

theorem makeParents_grown (t : FileTree) (path : Path) :
    Grown (Parent path) t (t.makeParents path).1 := by
  refine makeAll_preserves (fun k positive below t' t'' grown made => ?_) (.refl _ t)
  exact grown.trans (makeDirectory_grown ⟨k, by omega, rfl⟩ made)

/-- Nothing is made if the directory that a path takes its last step in is there. -/
theorem Within.makeParents {t : FileTree} {path : Path} {home : Place}
    (within : Within t path home) : (t.makeParents path).1 = t := by
  obtain ⟨leads, entries, here⟩ := within
  rw [FileTree.makeParents]
  cases count : path.steps.length - 1 with
  | zero => rfl
  | succ count' =>
    have steps : (path.upTo (count' + 1)).steps = path.steps.dropLast := by
      rw [Path.steps_upTo, List.dropLast_eq_take, count]
    unfold makeAll makeDirectory
    rw [place_eq_walk, steps, leads]
    cases fault : (path.upTo (count' + 1)).fault? with
    | none => simp only [here]
    | some e =>
      cases e with
      | notFound => exact absurd fault (Path.fault?_ne_notFound _)
      | _ => rfl

/-- Each directory that a path leads through on its way to its last step is there. -/
theorem Within.through {t : FileTree} {path : Path} {home q : Place} (within : Within t path home)
    {count : Nat} (before : count < path.steps.length)
    (leads : t.place (path.upTo count) = .ok q) : look q t = some none := by
  obtain ⟨walked, entries, here⟩ := within
  rw [place_eq_walk, Path.steps_upTo] at leads
  split at leads
  · cases leads
  · have split : path.steps.dropLast =
        path.steps.take count ++ path.steps.dropLast.drop count := by
      conv_lhs => rw [← List.take_append_drop count path.steps.dropLast]
      rw [List.dropLast_eq_take, List.take_take, Nat.min_eq_left (by omega)]
    rw [split, walk_append, leads, Except.bind] at walked
    cases rest : path.steps.dropLast.drop count with
    | nil =>
      rw [rest] at walked
      simp only [walk, List.reverse_reverse, Except.ok.injEq] at walked
      rw [walked]
      exact look_of_node here
    | cons step rest' =>
      rw [rest, walk_cons, List.reverse_reverse] at walked
      split at walked
      · cases walked
      · cases walked
      · rename_i entries' there
        exact look_of_node there

/-! ## Reading -/

variable {t t' : FileTree} {path : Path} {name : String} {home : Place}

theorem read_of_fault {e : DiskFault} (fault : path.fault? = some e) : t.read path = .error e := by
  simp only [read, place, fault]

theorem Within.read (within : Within t path home)
    (named : path.steps.getLast? = some (.into name)) :
    t.read path = match path.fault? with
      | some e => .error e
      | none =>
        if nameLimit < name.utf8ByteSize then .error .nameTooLong
        else match look (home ++ [name]) t with
          | none => .error .notFound
          | some none => .error .isDirectory
          | some (some content) =>
            if path.ending = .nothing then .ok content else .error .notDirectory := by
  rw [FileTree.read, within.place named]
  obtain ⟨-, entries, here⟩ := within
  cases path.fault? with
  | some e => rfl
  | none =>
    by_cases long : nameLimit < name.utf8ByteSize
    · simp only [if_pos long]
    · have there : node (home ++ [name]) t = node [name] (directory entries) := by
        rw [node_append, here, Except.bind]
      rw [node_cons] at there
      simp only [if_neg long, look, there]
      cases entries.lookup name with
      | none => rfl
      | some found => cases found <;> rfl

/-- A path is read as before if the last place is as it was. -/
theorem Within.read_congr (within : Within t path home) (within' : Within t' path home)
    (named : path.steps.getLast? = some (.into name))
    (same : look (home ++ [name]) t' = look (home ++ [name]) t) : t'.read path = t.read path := by
  rw [within'.read named, within.read named, same]

theorem read_of_missing (named : path.steps.getLast? = some (.into name))
    (noFault : path.fault? = none)
    (missing : t.walk [] path.steps.dropLast = .error .notFound ∨
      ∃ home, t.walk [] path.steps.dropLast = .ok home ∧ node home t = .error .notFound) :
    t.read path = .error .notFound := by
  have walked : t.walk [] path.steps = .error .notFound := by
    rw [steps_of_last named, walk_append]
    rcases missing with lost | ⟨home, leads, missing⟩
    · rw [lost]
      rfl
    · rw [leads, Except.bind, walk_into, missing]
  simp only [read, place_eq_walk, noFault, walked]

/-- Directories are made only on the way to what cannot be found. -/
theorem makeParents_eq_or_missing (t : FileTree) (named : path.steps.getLast? = some (.into name))
    (noFault : path.fault? = none) :
    (t.makeParents path).1 = t ∨ t.read path = .error .notFound := by
  rw [makeParents]
  cases count : path.steps.length - 1 with
  | zero => exact .inl rfl
  | succ above =>
    have steps : (path.upTo (above + 1)).steps = path.steps.dropLast := by
      rw [Path.steps_upTo, List.dropLast_eq_take, count]
    have placed := t.place_eq_or_fault (path.upTo (above + 1))
    rw [steps] at placed
    rw [makeAll]
    cases made : t.makeDirectory (path.upTo (above + 1)) with
    | error e =>
      by_cases missing : e = .notFound
      · rw [missing] at made
        have lost := makeDirectory_notFound made
        rcases placed with same | ⟨e, other, fault⟩
        · exact .inr (read_of_missing named noFault (.inl (same.symm.trans lost)))
        · exact absurd (Except.error.inj (fault.symm.trans lost)) other
      · cases e with
        | notFound => exact absurd rfl missing
        | _ => exact .inl rfl
    | ok t' =>
      rcases makeDirectory_eq made with rfl | ⟨home, leads, missing, -⟩
      · exact .inl rfl
      · rcases placed with same | ⟨e, other, fault⟩
        · exact .inr (read_of_missing named noFault (.inr ⟨home, same.symm.trans leads, missing⟩))
        · cases fault.symm.trans leads

/-! ## Paths that only lead down -/

/-- A path leads down by these names, none of which is too long. -/
def Downward (path : Path) (names : List String) : Prop :=
  path.steps = names.map .into ∧ ∀ name ∈ names, name.utf8ByteSize ≤ nameLimit

theorem walk_down (t : FileTree) {names : List String}
    (short : ∀ name ∈ names, name.utf8ByteSize ≤ nameLimit) (home : Place) :
    (∀ p, t.walk home.reverse (names.map .into) = .ok p → p = home ++ names) ∧
      ∀ e, t.walk home.reverse (names.map .into) = .error e →
        node (home ++ names) t = .error e := by
  induction names generalizing home with
  | nil =>
    rw [List.map_nil, walk, List.reverse_reverse, List.append_nil]
    exact ⟨fun p here => (Except.ok.inj here).symm, fun e lost => by cases lost⟩
  | cons name rest ih =>
    rw [List.map_cons, walk_cons, List.reverse_reverse, node_append]
    cases here : node home t with
    | error e =>
      constructor
      · intro p led
        cases led
      · intro e' lost
        cases lost
        rfl
    | ok found =>
      cases found with
      | file content =>
        constructor
        · intro p led
          cases led
        · intro e' lost
          cases lost
          rfl
      | directory entries =>
        have next := ih (fun n listed => short n (List.mem_cons_of_mem _ listed)) (home ++ [name])
        have fits := Nat.not_lt.mpr (short name List.mem_cons_self)
        rw [List.reverse_concat, List.append_assoc, List.singleton_append, node_append,
          here] at next
        simpa only [if_neg fits] using next

/-- Of such a path it makes no difference where on the way a directory is missing. -/
theorem read_down {names : List String} (down : Downward path names)
    (noFault : path.fault? = none) :
    t.read path = .error .notFound ↔ node names t = .error .notFound := by
  obtain ⟨led, lost⟩ := t.walk_down down.2 []
  rw [← down.1, List.reverse_nil] at led lost
  simp only [read, place_eq_walk, noFault]
  cases walked : t.walk [] path.steps with
  | error e =>
    have here : node names t = .error e := lost e walked
    simp [here]
  | ok p =>
    have there : p = names := led p walked
    rw [there]
    simp only
    cases node names t with
    | error e => simp
    | ok found =>
      cases found with
      | file content =>
        simp only
        split <;> simp
      | directory entries => simp

theorem makeParents_missing {names : List String} (down : Downward path names)
    (missing : node names t = .error .notFound) :
    node names (t.makeParents path).1 = .error .notFound := by
  refine makeAll_preserves (P := fun t => node names t = .error .notFound)
    (fun k positive below t t' missing made => ?_) missing
  rcases makeDirectory_eq made with rfl | ⟨p, leads, none, rfl⟩
  · exact missing
  · have steps : (path.upTo k).steps = (names.take k).map .into := by
      rw [Path.steps_upTo, down.1, List.map_take]
    have short : ∀ name ∈ names.take k, name.utf8ByteSize ≤ nameLimit :=
      fun name listed => down.2 name (List.mem_of_mem_take listed)
    have here : p = names.take k := by
      rw [place_eq_walk, steps] at leads
      split at leads
      · cases leads
      · exact (t.walk_down short []).1 p leads
    have beyond : names.drop k ≠ [] := by
      have length := congrArg List.length down.1
      rw [List.length_map] at length
      rw [Ne, List.drop_eq_nil_iff]
      omega
    have put : node p (put p empty t) = .ok empty := node_put_self (by rw [none]; simp) empty
    rw [← List.take_append_drop k names, node_append, ← here, put]
    cases rest : names.drop k with
    | nil => exact absurd rest beyond
    | cons next rest => rfl

end ClusterClient.FileTree
