import ClusterClient.FileTree
/-!
The file that keeps the id of the cluster: one line with a positive number. It
is written beside its place first and then moved there, so that it is never
half written.
-/
namespace ClusterClient

structure ClusterIdFile where
  /-- The path as messages show it. -/
  shown : String
  path : Path
deriving DecidableEq, Repr

namespace ClusterIdFile

/-- A name without its last dot and what follows it. A dot in front does not count. -/
def stem (name : String) : List Char :=
  match Text.cutLast? '.' name.toList with
  | some (c :: cs, _) => c :: cs
  | _ => name.toList

def withExtension (ext name : String) : String :=
  String.ofList (stem name ++ '.' :: ext.toList)

/-- Where the id is written first: beside its place. There is no path beside the root.
A last step upwards stays as it is and leads to a directory, which cannot be written to;
so does a last name such as `..id` when its extension is taken off. -/
def temporary (f : ClusterIdFile) : Option Path :=
  match f.path.steps.getLast? with
  | none => none
  | some .up => some f.path
  | some (.into name) =>
    some (f.path.withLast
      (if stem name = ['.'] ∧ f.path.ending = .nothing then ".." else withExtension "tmp" name))

def utf8? (content : Bytes) : Option (List Char) :=
  (String.fromUTF8? ⟨content.toArray⟩).map String.toList

def content (id : ClusterId) : Bytes := (Text.showInt id.toInt ++ "\n").toUTF8.data.toList

/-- Only the first line counts, without the blanks around the number. -/
def parse (f : ClusterIdFile) (cs : List Char) : Except DiskFault ClusterId :=
  let line := Text.trim (cs.takeWhile (· != '\n'))
  match Text.readInt ((1 <<< 63) - 1) line with
  | .error _ => .error (.clusterIdUnreadable f.shown (String.ofList line))
  | .ok n =>
    let id := Int64.ofInt n
    if n ≤ 0 then .error (.clusterIdNotPositive f.shown id) else .ok id

/-- None if there is no such file. -/
def load (f : ClusterIdFile) (disk : FileTree) : Except Fault (Option ClusterId) :=
  match disk.read f.path with
  | .error .notFound => .ok none
  | .error e => .error (.disk e)
  | .ok bytes =>
    match utf8? bytes with
    | none => .error (.disk .notText)
    | some cs => ((f.parse cs).map some).mapError Fault.disk

/-- The tree afterwards comes with the outcome, since a failure may leave the
temporary file behind. -/
def persist (f : ClusterIdFile) (id : ClusterId) (disk : FileTree) :
    FileTree × Except Fault Unit :=
  if id ≤ 0 then (disk, .error (.invalidInput (.clusterId id)))
  else match disk.makeParents f.path, f.temporary with
    | (disk, .error e), _ => (disk, .error (.disk e))
    | (disk, .ok ()), none =>
      (disk, .error (.disk (f.path.fault?.getD
        (if f.path.ending = .dot then .busy else .notDirectory))))
    | (disk, .ok ()), some temporary =>
      match disk.write temporary (content id) with
      | .error e => (disk, .error (.disk e))
      | .ok disk =>
        match disk.move temporary f.path with
        | .error e => (disk, .error (.disk e))
        | .ok disk => (disk, .ok ())

end ClusterIdFile

end ClusterClient
