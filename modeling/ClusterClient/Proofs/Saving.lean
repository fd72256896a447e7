import ClusterClient.Proofs.Disk.Frames
import ClusterClient.Proofs.IdFile
/-!
What a call that saves the id of the cluster does to the files, whether or not it fails: it
makes the directories on the way that are missing, writes beside the file, and puts what it has
written in the place of the file. Nothing else is touched, and a call that fails leaves the file
as it was.
-/
namespace ClusterClient

namespace ClusterIdFile

open FileTree (Free Grown Keeps Parent Within look put remove)

/-- The path of the temporary file, if one can be written. -/
def beside (f : ClusterIdFile) (name : String) : Path :=
  f.path.withLast (withExtension "tmp" name)

theorem withExtension_ne {name short : String} (fits : short.length ≤ 3) :
    withExtension "tmp" name ≠ short := by
  intro same
  have longer : (withExtension "tmp" name).length = (stem name).length + 4 := by
    simp [withExtension, String.length]
  rw [same] at longer
  omega

theorem step_withExtension (name : String) :
    Path.step (withExtension "tmp" name) = .into (withExtension "tmp" name) :=
  if_neg (withExtension_ne (by decide))

theorem steps_beside (f : ClusterIdFile) (name : String) :
    (f.beside name).steps = f.path.steps.dropLast ++ [.into (withExtension "tmp" name)] := by
  have busy : Path.isIdle (withExtension "tmp" name) = false := by
    simp [Path.isIdle, withExtension_ne (show ".".length ≤ 3 by decide),
      withExtension_ne (show "".length ≤ 3 by decide)]
  rw [beside, Path.steps_withLast _ busy, step_withExtension]

theorem beside_named (f : ClusterIdFile) (name : String) :
    (f.beside name).steps.getLast? = some (.into (withExtension "tmp" name)) := by
  rw [steps_beside, List.getLast?_concat]

theorem within_beside {f : ClusterIdFile} {name : String} {t : FileTree} {home : Place} :
    Within t (f.beside name) home ↔ Within t f.path home := by
  rw [Within, Within, steps_beside, List.dropLast_concat]

theorem load_congr {f : ClusterIdFile} {t t' : FileTree} (same : t'.read f.path = t.read f.path) :
    f.load t' = f.load t := by
  rw [load, load, same]

theorem load_eq_none {f : ClusterIdFile} {t : FileTree} :
    f.load t = .ok none ↔ t.read f.path = .error .notFound := by
  constructor
  · intro loaded
    unfold load at loaded
    split at loaded
    · assumption
    · cases loaded
    · split at loaded
      · cases loaded
      · rename_i cs _
        cases read : f.parse cs <;> rw [read] at loaded <;> cases loaded
  · intro missing
    rw [load, missing]

/-! ## The course of a call -/

variable {f : ClusterIdFile} {name : String} {id : ClusterId} {t : FileTree} {home : Place}

/-- The id of a cluster written in a directory, beside its place. -/
def draft (home : Place) (name : String) (id : ClusterId) (t : FileTree) : FileTree :=
  put (home ++ [withExtension "tmp" name]) (.file (content id)) t

/-- This is where the file is or will be, and an id can be written beside it. -/
structure Room (f : ClusterIdFile) (name : String) (t : FileTree) (home : Place) : Prop where
  within : Within t f.path home
  leads : t.place (f.beside name) = .ok (home ++ [withExtension "tmp" name])
  free : Free (home ++ [withExtension "tmp" name]) t

theorem Room.keeps (room : Room f name t home) (id : ClusterId) :
    Keeps t (draft home name id t) :=
  (room.free.put _).1

theorem Room.node_draft (room : Room f name t home) (id : ClusterId) :
    FileTree.node (home ++ [withExtension "tmp" name]) (draft home name id t) =
      .ok (.file (content id)) :=
  (room.free.put _).2

theorem Room.look_draft (room : Room f name t home) (id : ClusterId) :
    look (home ++ [withExtension "tmp" name]) (draft home name id t) =
      some (some (content id)) := by
  rw [look, room.node_draft]

theorem Room.look_other (room : Room f name t home) (id : ClusterId) {q : Place}
    (other : q ≠ home ++ [withExtension "tmp" name]) :
    look q (draft home name id t) = look q t := by
  obtain ⟨-, entries, inside⟩ := room.within
  exact FileTree.look_put inside room.free (fun _ _ => rfl) other

/-- What has become of the files once the directories on the way are there: nothing was written,
the id stands beside its place, or it stands in its place. -/
inductive Saved (f : ClusterIdFile) (name : String) (id : ClusterId) (t : FileTree) :
    FileTree × Except Fault Unit → Prop
  | stopped (fault : Fault) : Saved f name id t (t, .error fault)
  | drafted {home : Place} (room : Room f name t home)
    (stuck : withExtension "tmp" name = name → f.path.fault? = none → f.path.ending ≠ .nothing)
    (fault : Fault) : Saved f name id t (draft home name id t, .error fault)
  | moved {home : Place} (room : Room f name t home) {t' : FileTree}
    (leadsThere : (draft home name id t).place f.path = .ok (home ++ [name]))
    (replaced : (draft home name id t).replace (home ++ [withExtension "tmp" name])
      (home ++ [name]) = .ok t') : Saved f name id t (t', .ok ())

/-- A temporary path that leads up leads to a directory, so nothing is written there. -/
theorem temporary_eq (named : f.path.steps.getLast? = some (.into name)) :
    f.temporary = some (f.beside name) ∨
      ∃ up, f.temporary = some up ∧ up.steps.getLast? = some .up := by
  simp only [temporary, named]
  by_cases bare : stem name = ['.'] ∧ f.path.ending = .nothing
  · rw [if_pos bare]
    refine .inr ⟨_, rfl, ?_⟩
    rw [Path.steps_withLast _ (by decide), List.getLast?_concat]
    rfl
  · rw [if_neg bare]
    exact .inl rfl

theorem room_of_written (f : ClusterIdFile) {name : String} {t t' : FileTree}
    (written : t.write (f.beside name) (content id) = .ok t') :
    ∃ home, Room f name t home ∧ t' = draft home name id t := by
  obtain ⟨p, leads, free, rfl⟩ := FileTree.write_eq written
  obtain ⟨home, within, rfl⟩ := FileTree.within_of_place (f.beside_named name) leads
  exact ⟨home, ⟨within_beside.mp within, leads, free⟩, rfl⟩

/-- A file can be moved onto itself, so if that fails it is because a directory was asked for. -/
theorem Room.stuck (room : Room f name t home)
    (named : f.path.steps.getLast? = some (.into name)) {e : DiskFault}
    (fails : (draft home name id t).move (f.beside name) f.path = .error e)
    (same : withExtension "tmp" name = name) (noFault : f.path.fault? = none) :
    f.path.ending ≠ .nothing := by
  intro plain
  have fits : ¬ FileTree.nameLimit < name.utf8ByteSize := by
    intro long
    have place := (within_beside.mpr room.within).place (f.beside_named name)
    rw [room.leads, same, if_pos long] at place
    split at place <;> cases place
  have leadsThere := ((room.keeps id).within room.within).place named
  simp only [noFault, if_neg fits] at leadsThere
  have here := room.node_draft id
  rw [FileTree.move_eq_replace ((room.keeps id).place room.leads) leadsThere noFault plain,
    same] at fails
  rw [same] at here
  cases (FileTree.replace_self here).symm.trans fails

theorem Room.saved (room : Room f name t home)
    (named : f.path.steps.getLast? = some (.into name)) (id : ClusterId) :
    Saved f name id t (match (draft home name id t).move (f.beside name) f.path with
      | .error e => (draft home name id t, .error (.disk e))
      | .ok t' => (t', .ok ())) := by
  have keeps := room.keeps id
  cases moved : (draft home name id t).move (f.beside name) f.path with
  | ok t' =>
    obtain ⟨q, leadsThere, -, replaced⟩ := FileTree.move_eq (keeps.place room.leads) moved
    obtain ⟨home', within', rfl⟩ := FileTree.within_of_place named leadsThere
    have same : home' = home :=
      Except.ok.inj (within'.1.symm.trans (keeps.within room.within).1)
    subst same
    exact .moved room leadsThere replaced
  | error e => exact .drafted room (room.stuck named moved) (.disk e)

/-- Each call goes one of these ways, after directories were made or none. -/
theorem persist_saved (named : f.path.steps.getLast? = some (.into name)) (id : ClusterId)
    (disk : FileTree) :
    ∃ t, (t = disk ∨ t = (disk.makeParents f.path).1) ∧ Saved f name id t (f.persist id disk) := by
  unfold persist
  split
  · exact ⟨disk, .inl rfl, .stopped _⟩
  · refine ⟨_, .inr rfl, ?_⟩
    rcases disk.makeParents f.path with ⟨t, e | ⟨⟩⟩
    · exact .stopped _
    · rcases temporary_eq named with here | ⟨up, here, upwards⟩
      · rw [here]
        simp only
        cases written : t.write (f.beside name) (content id) with
        | error e => exact .stopped _
        | ok t' =>
          obtain ⟨home, room, rfl⟩ := room_of_written f written
          exact room.saved named id
      · rw [here]
        simp only
        cases written : t.write up (content id) with
        | error e => exact .stopped _
        | ok t' =>
          obtain ⟨p, leads, free, -⟩ := FileTree.write_eq written
          obtain ⟨entries, there⟩ := FileTree.node_of_up upwards leads
          exact absurd (FileTree.look_of_node there) free.look

/-! ## What it leaves as it was -/

namespace Saved

variable {result : FileTree × Except Fault Unit}

theorem keeps (saved : Saved f name id t result) : Keeps t result.1 := by
  cases saved with
  | stopped fault => exact .refl t
  | drafted room stuck fault => exact room.keeps id
  | moved room leadsThere replaced =>
    exact (room.keeps id).trans (FileTree.replace_ok (room.node_draft id) replaced).1

/-- Only at two places is anything else than before, and there is or was no directory there. -/
theorem elsewhere (saved : Saved f name id t result) (q : Place) :
    look q result.1 = look q t ∨
      (result.1.place f.path = .ok q ∨ result.1.place (f.beside name) = .ok q) ∧
        look q t ≠ some none ∧ look q result.1 ≠ some none := by
  have keeps := saved.keeps
  cases saved with
  | stopped fault => exact .inl rfl
  | @drafted home room stuck fault =>
    by_cases same : q = home ++ [withExtension "tmp" name]
    · subst same
      refine .inr ⟨.inr (keeps.place room.leads), room.free.look, ?_⟩
      simp [room.look_draft]
    · exact .inl (room.look_other id same)
  | @moved home room t' leadsThere replaced =>
    obtain ⟨-, entries, inside⟩ := (room.keeps id).within room.within
    have here := room.node_draft id
    by_cases inPlace : q = home ++ [name]
    · subst inPlace
      obtain ⟨keepsLast, there⟩ := FileTree.replace_ok here replaced
      refine .inr ⟨.inl (keepsLast.place leadsThere), fun seen => ?_, ?_⟩
      · exact (FileTree.replace_eq here replaced).1.look ((room.keeps id).look seen)
      · simp [look, there]
    · obtain ⟨others, source⟩ := FileTree.look_replace here inside replaced inPlace
      by_cases same : q = home ++ [withExtension "tmp" name]
      · subst same
        exact .inr ⟨.inr (keeps.place room.leads), room.free.look, source rfl⟩
      · exact .inl ((others same).trans (room.look_other id same))

theorem read_of_error {t' : FileTree} {fault : Fault}
    (named : f.path.steps.getLast? = some (.into name))
    (saved : Saved f name id t (t', .error fault)) :
    t'.read f.path = t.read f.path ∨
      withExtension "tmp" name = name ∧ f.path.ending ≠ .nothing ∧
        t.read f.path = .error .notFound := by
  cases saved with
  | stopped fault => exact .inl rfl
  | @drafted home room stuck fault =>
    have within' := (room.keeps id).within room.within
    by_cases same : withExtension "tmp" name = name
    · have written := room.look_draft id
      have free := room.free
      rw [same] at written free
      rw [within'.read named, room.within.read named, written]
      cases noFault : f.path.fault? with
      | some e => exact .inl rfl
      | none =>
        have stuck := stuck same noFault
        by_cases long : FileTree.nameLimit < name.utf8ByteSize
        · simp [if_pos long]
        · simp only [if_neg long, if_neg stuck]
          rcases free with ⟨old, there⟩ | missing
          · simp [look, there]
          · simp [look, missing, same, stuck]
    · have other : home ++ [name] ≠ home ++ [withExtension "tmp" name] := by
        simpa using fun eq => same eq.symm
      exact .inl (room.within.read_congr within' named (room.look_other id other))

end Saved

/-! ## Outcomes -/

/-- What keeps an id from being saved. -/
inductive Hindered (f : ClusterIdFile) (name : String) (id : ClusterId) (disk : FileTree) : Prop
  | notPositive (below : id ≤ 0)
  | fileOnTheWay {count : Nat} (before : count < f.path.steps.length) {q : Place}
    {content : Bytes} (leads : disk.place (f.path.upTo count) = .ok q)
    (there : look q disk = some (some content))
  | directoryThere {path : Path} (either : path = f.path ∨ path = f.beside name) {q : Place}
    (leads : disk.place path = .ok q) (there : look q disk = some none)

theorem grown_of_start {disk t : FileTree} (start : t = disk ∨ t = (disk.makeParents f.path).1) :
    Grown (Parent f.path) disk t := by
  rcases start with rfl | rfl
  · exact .refl _ t
  · exact disk.makeParents_grown f.path

theorem Hindered.fails {disk disk' : FileTree} (hindered : Hindered f name id disk)
    (named : f.path.steps.getLast? = some (.into name)) :
    f.persist id disk ≠ (disk', .ok ()) := by
  intro saving
  obtain ⟨t, start, saved⟩ := persist_saved named id disk
  have grown := grown_of_start start
  rw [saving] at saved
  cases saved with
  | moved room leadsThere replaced =>
    have keeps := room.keeps id
    have freeThere := (FileTree.replace_eq (room.node_draft id) replaced).1
    cases hindered with
    | notPositive below => exact Int64.not_lt.mpr below (load_persist saving).1
    | fileOnTheWay before leads there =>
      have directory := room.within.through before (grown.keeps.place leads)
      rcases grown.look _ with same | ⟨missing, -⟩
      · cases directory.symm.trans (same.trans there)
      · cases missing.symm.trans there
    | directoryThere either leads' there =>
      have directory := grown.keeps.look there
      rcases either with rfl | rfl
      · have leads' := keeps.place (grown.keeps.place leads')
        cases leadsThere.symm.trans leads'
        exact freeThere.look (keeps.look directory)
      · cases room.leads.symm.trans (grown.keeps.place leads')
        exact room.free.look directory

/-- What a call makes or leaves behind has no bearing on whether the file is found. The file is
not asked for as a directory where the id is written first; and either the directory is there
already, or the path takes no step up and none by a name that is too long. -/
structure Direct (f : ClusterIdFile) (name : String) (disk : FileTree) : Prop where
  bare : withExtension "tmp" name = name → f.path.ending = .nothing
  parents : (∃ home, Within disk f.path home) ∨ ∃ names, FileTree.Downward f.path names

theorem read_of_start {disk t : FileTree} (named : f.path.steps.getLast? = some (.into name))
    (start : t = disk ∨ t = (disk.makeParents f.path).1)
    (direct : f.load disk = .ok none → Direct f name disk) :
    t.read f.path = disk.read f.path := by
  rcases start with rfl | rfl
  · rfl
  · cases fault : f.path.fault? with
    | some e => rw [FileTree.read_of_fault fault, FileTree.read_of_fault fault]
    | none =>
      rcases disk.makeParents_eq_or_missing named fault with same | missing
      · rw [same]
      · rcases (direct (load_eq_none.mpr missing)).parents with ⟨home, within⟩ | ⟨names, down⟩
        · rw [within.makeParents]
        · rw [missing, FileTree.read_down down fault]
          exact FileTree.makeParents_missing down ((FileTree.read_down down fault).mp missing)

/-- Saving is atomic. An id that was saved is positive and is read back. A call that is hindered
fails, and after a call that fails all is read as before; if the file was missing, this is so for
direct paths. No other file than this one and the one beside it changes, and no directory is added
but those on the way that were missing. -/
theorem persist_atomic {disk disk' : FileTree} {result : Except Fault Unit}
    (named : f.path.steps.getLast? = some (.into name))
    (saving : f.persist id disk = (disk', result)) :
    (result = .ok () → 0 < id ∧ f.load disk' = .ok (some id)) ∧
    (result ≠ .ok () → (f.load disk = .ok none → Direct f name disk) →
      f.load disk' = f.load disk) ∧
    (Hindered f name id disk → result ≠ .ok ()) ∧
    (∀ q, look q disk' = look q disk ∨
      (look q disk = none ∧ look q disk' = some none ∧
        ∃ count < f.path.steps.length, disk'.place (f.path.upTo count) = .ok q) ∨
      (disk'.place f.path = .ok q ∨ disk'.place (f.beside name) = .ok q) ∧
        look q disk ≠ some none ∧ look q disk' ≠ some none) ∧
    ∀ disk n, f.load disk = .ok (some n) → 0 < n := by
  obtain ⟨t, start, saved⟩ := persist_saved named id disk
  rw [saving] at saved
  refine ⟨fun ok => ?_, fun failed direct => ?_, fun hindered ok => ?_, fun q => ?_,
    fun disk n => load_positive⟩
  · exact load_persist (ok ▸ saving)
  · cases result with
    | ok => exact absurd rfl failed
    | error fault =>
      have first := read_of_start named start direct
      rcases saved.read_of_error named with same | ⟨temporary, plain, missing⟩
      · exact load_congr (same.trans first)
      · have none := load_eq_none.mpr (first.symm.trans missing)
        exact absurd ((direct none).bare temporary) plain
  · exact hindered.fails named (ok ▸ saving)
  · have grown := grown_of_start start
    rcases saved.elsewhere q with same | ⟨led, noneBefore, noneAfter⟩
    · rcases grown.look q with same' | ⟨missing, made, _, ⟨count, before, rfl⟩, leads⟩
      · exact .inl (same.trans same')
      · exact .inr (.inl ⟨missing, same.trans made, count, before, saved.keeps.place leads⟩)
    · exact .inr (.inr ⟨led, fun seen => noneBefore (grown.keeps.look seen), noneAfter⟩)

namespace Sample

def nested : ClusterIdFile := ⟨"meta/cluster.id", .ofText "meta/cluster.id"⟩

/-- A directory is where the id of the cluster would be written first. -/
def blocked : FileTree := .directory [("meta", .directory [("cluster.tmp", .empty)])]

def winding : ClusterIdFile := ⟨"a/../x.id", .ofText "a/../x.id"⟩

/-- The file is there, but not the directory that its path goes into and out of again. -/
def unvisited : FileTree := .directory [("x.id", .file (content 5)), ("x.tmp", .empty)]

end Sample

open Sample (nested blocked winding unvisited)

theorem persist_atomic_in_sample :
    (∃ disk, nested.persist 42 .empty = (disk, .ok ()) ∧ nested.load disk = .ok (some 42)) ∧
      ∃ disk, nested.persist 7 blocked = (disk, .error (.disk .isDirectory)) ∧
        nested.load disk = .ok none := by
  have named : nested.path.steps.getLast? = some (.into "cluster.id") := by decide +kernel
  constructor
  · obtain ⟨saved, -⟩ := persist_atomic named
      (show nested.persist 42 .empty = (_, .ok ()) from rfl)
    exact ⟨_, rfl, (saved rfl).2⟩
  · obtain ⟨-, kept, -⟩ := persist_atomic named
      (show nested.persist 7 blocked = (_, .error (.disk .isDirectory)) from rfl)
    refine ⟨_, rfl, kept (fun ok => by cases ok) fun _ => ⟨fun temporary => ?_, .inl ?_⟩⟩
    · exact absurd temporary (by decide +kernel)
    · exact ⟨["meta"], rfl, _, rfl⟩

/-- A call that fails may find the file all the same: it makes the directory that was missing on
the way, and so the path leads to where the file is. -/
theorem failed_persist_uncovers_file :
    winding.path.steps.getLast? = some (.into "x.id") ∧ winding.load unvisited = .ok none ∧
      (winding.persist 7 unvisited).2 = .error (.disk .isDirectory) ∧
      winding.load (winding.persist 7 unvisited).1 = .ok (some 5) :=
  ⟨by decide +kernel, rfl, rfl, load_of_read (by decide) rfl⟩

end ClusterIdFile

end ClusterClient
