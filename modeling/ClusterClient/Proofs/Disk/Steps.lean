import ClusterClient.Proofs.Disk
import Mathlib.Data.List.Basic
/-!
The steps of a path: those of its beginnings, those of the paths beside it, and the directories
that they are taken in.
-/
namespace ClusterClient

namespace Path

theorem filter_takeSteps (count : Nat) (pieces : List String) :
    (takeSteps count pieces).filter (fun piece => !isIdle piece) =
      (pieces.filter fun piece => !isIdle piece).take count := by
  induction pieces generalizing count with
  | nil => cases count <;> rfl
  | cons piece rest ih =>
    cases count with
    | zero => simp [takeSteps]
    | succ count =>
      by_cases idle : isIdle piece = true
      · simp [takeSteps, idle, ih]
      · simp [takeSteps, idle, ih]

theorem steps_upTo (p : Path) (count : Nat) : (p.upTo count).steps = p.steps.take count := by
  rw [steps, upTo, filter_takeSteps, List.map_take, steps]

theorem tail_filter_busy (pieces : List String) :
    (pieces.filter fun piece => !isIdle piece).tail =
      (pieces.dropWhile isIdle).tail.filter fun piece => !isIdle piece := by
  induction pieces with
  | nil => rfl
  | cons piece rest ih =>
    by_cases idle : isIdle piece = true
    · simp [idle, ih]
    · simp [idle]

theorem steps_withLast (p : Path) {name : String} (busy : isIdle name = false) :
    (p.withLast name).steps = p.steps.dropLast ++ [step name] := by
  have earlier := tail_filter_busy p.pieces.reverse
  rw [List.filter_reverse, List.tail_reverse] at earlier
  have kept := congrArg List.reverse earlier
  rw [List.reverse_reverse] at kept
  rw [steps, withLast, List.filter_append, List.filter_reverse, ← kept, List.map_append,
    List.map_dropLast]
  simp [steps, busy]

theorem fault?_ne_notFound (p : Path) : p.fault? ≠ some .notFound := by
  unfold fault?
  split
  · exact fun h => by cases h
  · split <;> exact fun h => by cases h

end Path

namespace FileTree

theorem walk_cons (t : FileTree) (names : List String) (step : Path.Step)
    (rest : List Path.Step) :
    t.walk names (step :: rest) =
      match node names.reverse t with
      | .error e => .error e
      | .ok (file _) => .error .notDirectory
      | .ok (directory _) =>
        match step with
        | .into name =>
          if nameLimit < name.utf8ByteSize then .error .nameTooLong
          else t.walk (name :: names) rest
        | .up => t.walk names.tail rest := rfl

theorem walk_append (t : FileTree) (names : List String) (first rest : List Path.Step) :
    t.walk names (first ++ rest) =
      (t.walk names first).bind fun home => t.walk home.reverse rest := by
  induction first generalizing names with
  | nil => simp [walk, Except.bind]
  | cons step first ih =>
    rw [List.cons_append, walk_cons, walk_cons]
    cases node names.reverse t with
    | error e => rfl
    | ok here =>
      cases here with
      | file content => rfl
      | directory entries =>
        cases step with
        | into name =>
          simp only [ih]
          split <;> rfl
        | up => exact ih names.tail

theorem walk_into (t : FileTree) (home : Place) (name : String) :
    t.walk home.reverse [.into name] =
      match node home t with
      | .error e => .error e
      | .ok (file _) => .error .notDirectory
      | .ok (directory _) =>
        if nameLimit < name.utf8ByteSize then .error .nameTooLong else .ok (home ++ [name]) := by
  rw [walk_cons, List.reverse_reverse]
  cases node home t with
  | error e => rfl
  | ok here => cases here <;> simp [walk]

/-- What makes a path useless wherever it leads is never that something is missing. -/
theorem place_eq_or_fault (t : FileTree) (path : Path) :
    t.place path = t.walk [] path.steps ∨ ∃ e, e ≠ .notFound ∧ t.place path = .error e := by
  rw [place_eq_walk]
  cases fault : path.fault? with
  | none => exact .inl rfl
  | some e => exact .inr ⟨e, fun eq => path.fault?_ne_notFound (eq ▸ fault), rfl⟩

/-- What a place is in is a directory. -/
theorem node_dropLast {q : Place} {t : FileTree} {entries : List (String × FileTree)}
    (here : node q t = .ok (directory entries)) :
    ∃ entries', node q.dropLast t = .ok (directory entries') := by
  rcases List.eq_nil_or_concat q with rfl | ⟨home, name, rfl⟩
  · exact ⟨entries, here⟩
  · rw [List.concat_eq_append, node_append] at here
    rw [List.concat_eq_append, List.dropLast_concat]
    cases above : node home t with
    | error e =>
      rw [above] at here
      cases here
    | ok found =>
      cases found with
      | file content =>
        rw [above] at here
        cases here
      | directory entries' => exact ⟨entries', rfl⟩

/-- A path takes its last step in this directory. -/
def Within (t : FileTree) (path : Path) (home : Place) : Prop :=
  t.walk [] path.steps.dropLast = .ok home ∧ ∃ entries, node home t = .ok (directory entries)

theorem Keeps.within {t t' : FileTree} (keeps : Keeps t t') {path : Path} {home : Place}
    (within : Within t path home) : Within t' path home := by
  obtain ⟨leads, entries, here⟩ := within
  exact ⟨keeps.walk leads, keeps home entries here⟩

variable {t : FileTree} {path : Path} {name : String}

theorem steps_of_last (named : path.steps.getLast? = some (.into name)) :
    path.steps = path.steps.dropLast ++ [.into name] :=
  (List.dropLast_append_getLast? _ named).symm

theorem Within.place {home : Place} (within : Within t path home)
    (named : path.steps.getLast? = some (.into name)) :
    t.place path = match path.fault? with
      | some e => .error e
      | none =>
        if nameLimit < name.utf8ByteSize then .error .nameTooLong else .ok (home ++ [name]) := by
  obtain ⟨leads, entries, here⟩ := within
  rw [place_eq_walk]
  cases path.fault? with
  | some e => rfl
  | none =>
    simp only
    rw [steps_of_last named, walk_append, leads]
    simp only [Except.bind, walk_into, here]

theorem within_of_place {p : Place} (named : path.steps.getLast? = some (.into name))
    (leads : t.place path = .ok p) : ∃ home, Within t path home ∧ p = home ++ [name] := by
  rw [place_eq_walk] at leads
  split at leads
  · cases leads
  · rw [steps_of_last named, walk_append] at leads
    cases first : t.walk [] path.steps.dropLast with
    | error e =>
      rw [first] at leads
      cases leads
    | ok home =>
      rw [first, Except.bind, walk_into] at leads
      split at leads
      · cases leads
      · cases leads
      · rename_i entries here
        split at leads
        · cases leads
        · exact ⟨home, ⟨first, entries, here⟩, (Except.ok.inj leads).symm⟩

/-- A path whose last step leads up leads to a directory. -/
theorem node_of_up {p : Place} (upwards : path.steps.getLast? = some .up)
    (leads : t.place path = .ok p) : ∃ entries, node p t = .ok (directory entries) := by
  rw [place_eq_walk] at leads
  split at leads
  · cases leads
  · rw [← List.dropLast_append_getLast? _ upwards, walk_append] at leads
    cases first : t.walk [] path.steps.dropLast with
    | error e =>
      rw [first] at leads
      cases leads
    | ok home =>
      rw [first, Except.bind, walk_cons, List.reverse_reverse] at leads
      split at leads
      · cases leads
      · cases leads
      · rename_i entries here
        simp only [walk, Except.ok.injEq] at leads
        rw [← leads, ← List.dropLast_reverse, List.reverse_reverse]
        exact node_dropLast here

/-- What is missing where a path leads is missing in a directory. -/
theorem within_of_missing {p : Place} (leads : t.place path = .ok p)
    (missing : node p t = .error .notFound) :
    ∃ home name entries, p = home ++ [name] ∧ node home t = .ok (directory entries) := by
  cases last : path.steps.getLast? with
  | none =>
    rw [place_eq_walk, List.getLast?_eq_none_iff.mp last] at leads
    split at leads
    · cases leads
    · cases leads
      cases missing
  | some step =>
    cases step with
    | into name =>
      obtain ⟨home, ⟨-, entries, here⟩, rfl⟩ := within_of_place last leads
      exact ⟨home, name, entries, rfl, here⟩
    | up =>
      obtain ⟨entries, here⟩ := node_of_up last leads
      cases here.symm.trans missing

end FileTree

end ClusterClient
