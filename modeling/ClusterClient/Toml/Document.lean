import ClusterClient.Toml
/-!
A document is a sequence of statements, each of which adds to the tables that
the ones before it have made. Nothing is ever stated twice, and a table is
filled either under its own header or through dotted keys.
-/
namespace ClusterClient.Toml

/-- A dotted key: the tables that lead to a place, and the name of the place. -/
structure Key where
  above : List String
  name : String
deriving DecidableEq, Repr

def Key.path (k : Key) : List String := k.above ++ [k.name]

inductive Statement
  | table (key : Key)
  | element (key : Key)
  | entry (key : Key) (value : Toml)

/-- What brought a table about: its own header, a longer header or a dotted key. -/
inductive Origin
  | header
  | implied
  | dotted
deriving DecidableEq, Repr

/-- A value is complete as it stands. A table may grow, and of a series of tables
the last one may. -/
inductive Node
  | value (v : Toml)
  | table (origin : Origin) (entries : List (String × Node))
  | series (elements : List (List (String × Node)))

abbrev Entries := List (String × Node)

def alter (f : Option Node → Option Node) (name : String) : Entries → Option Entries
  | [] => (f none).map fun n => [(name, n)]
  | e :: rest =>
    if e.1 = name then (f (some e.2)).map fun n => (name, n) :: rest
    else (alter f name rest).map (e :: ·)

/-- Changes the table that a path leads to. Tables missing on the way are made, as
`made`; a dotted key does not lead through a table that has a header. -/
def descend (made : Origin) (f : Origin → Entries → Option Entries) :
    List String → Origin → Entries → Option Entries
  | [], origin, entries => f origin entries
  | name :: rest, _, entries =>
    alter (fun
      | none => (descend made f rest made []).map (.table made)
      | some (.value _) => none
      | some (.table origin inner) =>
        if made = .dotted ∧ origin = .header then none
        else (descend made f rest origin inner).map (.table origin)
      | some (.series elements) =>
        match elements.getLast? with
        | none => none
        | some last => (descend made f rest .header last).map fun last =>
          .series (elements.dropLast ++ [last])) name entries

def openTable : Option Node → Option Node
  | none => some (.table .header [])
  | some (.table .implied entries) => some (.table .header entries)
  | some _ => none

def openElement : Option Node → Option Node
  | none => some (.series [[]])
  | some (.series elements) => some (.series (elements ++ [[]]))
  | some _ => none

def openAt (f : Option Node → Option Node) (key : Key) (root : Entries) : Option Entries :=
  descend .implied (fun _ entries => alter f key.name entries) key.above .header root

/-- Adds a value to a table: to those made by dotted keys through dotted keys only,
and to no others through them. -/
def assign (key : Key) (value : Toml) : Origin → Entries → Option Entries :=
  descend .dotted (fun origin entries =>
    if (origin = .dotted) = (key.above = []) then none
    else alter (fun
      | none => some (.value value)
      | some _ => none) key.name entries) key.above

/-- What has been stated so far, and the path of the header that is in force. -/
structure Draft where
  here : List String
  root : Entries

def Draft.add (d : Draft) : Statement → Option Draft
  | .table key => (openAt openTable key d.root).map (⟨key.path, ·⟩)
  | .element key => (openAt openElement key d.root).map (⟨key.path, ·⟩)
  | .entry key value =>
    (descend .implied (assign key value) d.here .header d.root).map (⟨d.here, ·⟩)

mutual

def Node.finished : Node → Toml
  | .value v => v
  | .table _ entries => .table (finishedEntries entries)
  | .series elements => .list (finishedElements elements)

def finishedEntries : List (String × Node) → List (String × Toml)
  | [] => []
  | (name, n) :: rest => (name, n.finished) :: finishedEntries rest

def finishedElements : List (List (String × Node)) → List Toml
  | [] => []
  | entries :: rest => .table (finishedEntries entries) :: finishedElements rest

end

def ofStatements? (statements : List Statement) : Option Toml :=
  (statements.foldlM Draft.add ⟨[], []⟩).map fun d => .table (finishedEntries d.root)

/-- An inline table is complete with its closing brace. -/
def inline? (entries : List (Key × Toml)) : Option Toml :=
  (entries.foldlM (fun made (key, value) => assign key value .header made) []).map fun made =>
    .table (finishedEntries made)

end ClusterClient.Toml
