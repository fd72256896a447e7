import ClusterClient.Fault
import ClusterClient.Partition
import ClusterClient.Text.Blank
/-!
Files and directories. A node is named by its place, the names that lead to it from
the root. A path leads to a place step by step, and each step but the last one has to
be taken within directories that are there.
-/
namespace ClusterClient

/-- The text of a path, cut at its slashes. -/
structure Path where
  pieces : List String
deriving DecidableEq, Repr

namespace Path

inductive Step
  | into (name : String)
  | up
deriving DecidableEq, Repr

/-- What stands behind the last step. More than nothing asks for a directory. -/
inductive Ending
  | nothing
  | slash
  | dot
deriving DecidableEq, Repr

def ofText (s : String) : Path := ⟨(Text.splitAt '/' s.toList).map String.ofList⟩

/-- A single dot stays where it is, and so does an empty name. -/
def isIdle (piece : String) : Bool := piece == "" || piece == "."

def step (piece : String) : Step := if piece = ".." then .up else .into piece

variable (p : Path)

def steps : List Step := (p.pieces.filter fun piece => !isIdle piece).map step

def ending : Ending :=
  if (p.pieces.filter fun piece => piece != "").getLast? = some "." then .dot
  else if p.pieces.getLast? = some "" then .slash
  else .nothing

def takeSteps : Nat → List String → List String
  | 0, _ | _, [] => []
  | n + 1, piece :: rest =>
    piece :: (if isIdle piece then takeSteps (n + 1) rest else takeSteps n rest)

/-- The path that ends with the step of this number, counted from 1. -/
def upTo (count : Nat) : Path := ⟨takeSteps count p.pieces⟩

/-- Another name in the place of the last step and of what stands behind it. -/
def withLast (name : String) : Path :=
  ⟨((p.pieces.reverse.dropWhile isIdle).tail).reverse ++ [name]⟩

/-- In bytes, with the slashes between the pieces. -/
def length : Nat :=
  p.pieces.foldl (fun n piece => n + piece.utf8ByteSize) (p.pieces.length - 1)

def lengthLimit : Nat := 4095

/-- What makes a path useless wherever it leads. -/
def fault? : Option DiskFault :=
  if p.pieces.any fun piece => piece.toList.contains '\x00' then some .nulInName
  else if lengthLimit < p.length then some .nameTooLong
  else none

end Path

abbrev Place := List String

inductive FileTree
  | file (content : Bytes)
  | directory (entries : List (String × FileTree))
deriving Inhabited

namespace FileTree

def empty : FileTree := directory []

/-- There may be no node at a place, or a file may be in the way. -/
def node : Place → FileTree → Except DiskFault FileTree
  | [], t => .ok t
  | _ :: _, file _ => .error .notDirectory
  | name :: rest, directory entries =>
    match entries.lookup name with
    | none => .error .notFound
    | some t => node rest t

def setEntry (name : String) (t : FileTree) : List (String × FileTree) → List (String × FileTree)
  | [] => [(name, t)]
  | e :: rest => if e.1 = name then (name, t) :: rest else e :: setEntry name t rest

/-- Puts a node at a place whose directories are there. -/
def put : Place → FileTree → FileTree → FileTree
  | [], new, _ => new
  | name :: rest, new, directory entries =>
    directory (setEntry name
      (put rest new ((entries.lookup name).getD empty)) entries)
  | _ :: _, _, t => t

def remove : Place → FileTree → FileTree
  | [name], directory entries => directory (entries.filter fun e => e.1 != name)
  | name :: rest, directory entries =>
    directory (entries.map fun e => if e.1 = name then (e.1, remove rest e.2) else e)
  | _, t => t

/-! ## By path -/

def nameLimit : Nat := 255

/-- Where steps lead from a node, if there is one. The names that led to it and the
directories it is in come with it, the nearest first. Above the root there is only the
root. -/
def follow : List String → List FileTree → Option FileTree → List Path.Step →
    Except DiskFault Place
  | names, _, _, [] => .ok names.reverse
  | _, _, none, _ :: _ => .error .notFound
  | _, _, some (file _), _ :: _ => .error .notDirectory
  | names, above, some (directory entries), .into name :: rest =>
    if nameLimit < name.utf8ByteSize then .error .nameTooLong
    else follow (name :: names) (directory entries :: above) (entries.lookup name) rest
  | _ :: names, t :: above, some (directory _), .up :: rest => follow names above (some t) rest
  | names, above, some t, .up :: rest => follow names above (some t) rest

def place (t : FileTree) (path : Path) : Except DiskFault Place :=
  match path.fault? with
  | some e => .error e
  | none => follow [] [] (some t) path.steps

def read (t : FileTree) (path : Path) : Except DiskFault Bytes :=
  match t.place path with
  | .error e => .error e
  | .ok place =>
    match node place t with
    | .error e => .error e
    | .ok (directory _) => .error .isDirectory
    | .ok (file content) =>
      if path.ending = .nothing then .ok content else .error .notDirectory

def makeDirectory (t : FileTree) (path : Path) : Except DiskFault FileTree :=
  match t.place path with
  | .error e => .error e
  | .ok place =>
    match node place t with
    | .ok (directory _) => .ok t
    | .ok (file _) => .error .alreadyExists
    | .error .notFound => .ok (put place empty t)
    | .error e => .error e

/-- Makes a directory of the first so many steps, and those on the way to it as far as
they are missing. What was made stays if then something is in the way. -/
def makeAll (path : Path) : Nat → FileTree → FileTree × Except DiskFault Unit
  | 0, t => (t, .ok ())
  | count + 1, t =>
    match t.makeDirectory (path.upTo (count + 1)) with
    | .ok t => (t, .ok ())
    | .error .notFound =>
      match makeAll path count t with
      | (t, .error e) => (t, .error e)
      | (t, .ok ()) =>
        match t.makeDirectory (path.upTo (count + 1)) with
        | .ok t => (t, .ok ())
        | .error e => (t, .error e)
    | .error e => (t, .error e)

def makeDirectories (t : FileTree) (path : Path) : FileTree × Except DiskFault Unit :=
  makeAll path path.steps.length t

/-- Makes all directories that a file with this path is in. -/
def makeParents (t : FileTree) (path : Path) : FileTree × Except DiskFault Unit :=
  makeAll path (path.steps.length - 1) t

def write (t : FileTree) (path : Path) (content : Bytes) : Except DiskFault FileTree :=
  match t.place path with
  | .error e => .error e
  | .ok place =>
    match node place t with
    | .ok (directory _) => .error .isDirectory
    | .ok (file _) | .error .notFound =>
      if path.ending = .nothing then .ok (put place (file content) t) else .error .isDirectory
    | .error e => .error e

/-- Puts a file in the place of another one, or where there is nothing. -/
def replace (t : FileTree) (source target : Place) : Except DiskFault FileTree :=
  match node source t, node target t with
  | .error e, _ => .error e
  | .ok _, .ok (directory _) => .error .isDirectory
  | .ok n, .ok (file _) | .ok n, .error .notFound =>
    if source = target then .ok t else .ok (put target n (remove source t))
  | .ok _, .error e => .error e

/-- A file cannot be moved to where a directory is asked for. -/
def move (t : FileTree) (source target : Path) : Except DiskFault FileTree :=
  match target.fault?, t.place source, t.place target with
  | some e, _, _ | none, .error e, _ | none, .ok _, .error e => .error e
  | none, .ok source, .ok place =>
    match target.ending with
    | .nothing => t.replace source place
    | .slash => .error .notDirectory
    | .dot =>
      match node place t with
      | .error e => .error e
      | .ok (file _) => .error .notDirectory
      | .ok (directory _) => .error .busy

/-- All nodes below the root, with the content of those that are files. -/
def listing : List String → FileTree → List (Place × Option Bytes)
  | place, file content => [(place, some content)]
  | place, directory entries =>
    (if place.isEmpty then [] else [(place, none)]) ++ below place entries
where
  below : List String → List (String × FileTree) → List (Place × Option Bytes)
    | _, [] => []
    | place, e :: rest => listing (place ++ [e.1]) e.2 ++ below place rest

end FileTree

end ClusterClient
