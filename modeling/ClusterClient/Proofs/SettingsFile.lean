import ClusterClient.Proofs.IdFile
import ClusterClient.Proofs.Toml.Documents
import ClusterClient.Settings.File
/-!
The file that settings are kept in: settings that could be saved are read back.
-/
namespace ClusterClient

namespace Toml

/-! ## Entries -/

theorem uint64?_int (n : UInt64) : uint64? (scalar (.int n.toNat)) = some n := by
  have below := n.toNat_lt
  have within : (0 : Int) ≤ n.toNat ∧ (n.toNat : Int) ≤ UInt64.size - 1 := by
    have size : (UInt64.size : Int) = 2 ^ 64 := rfl
    omega
  rw [uint64?, bounded?, if_pos within]
  simp

theorem int32?_int (n : Int32) : int32? (scalar (.int n.toInt)) = some n := by
  have within : Int32.minValue.toInt ≤ n.toInt ∧ n.toInt ≤ Int32.maxValue.toInt :=
    ⟨n.minValue_le_toInt, n.toInt_le⟩
  rw [int32?, bounded?, if_pos within, Int32.ofInt_toInt]

/-- Where every name is there once, all entries are found under theirs. -/
theorem fields?_table (entries : List (String × Toml))
    (distinct : (entries.map Prod.fst).Nodup) :
    fields? (entries.map Prod.fst) (table entries) = some (entries.map fun e => some e.2) := by
  have known : entries.all fun e => (entries.map Prod.fst).contains e.1 || e.2.isUsable := by
    rw [List.all_eq_true]
    intro e here
    rw [List.contains_iff_mem.mpr (List.mem_map_of_mem here)]
    rfl
  rw [fields?, if_pos known]
  exact congrArg some (Table.map_lookup_keys distinct)

end Toml

namespace Settings

open Toml

theorem role?_text (r : Role) : role? (scalar (.text (roleText r))) = some r := by
  cases r <;> rfl

/-- The names in a section are the same whatever stands behind them. -/
theorem metaSection_names (m : MetaSettings) :
    (metaSection m).entries.map Prod.fst = (metaSection {}).entries.map Prod.fst := rfl

theorem logSection_names (l : LogSettings) :
    (logSection l).entries.map Prod.fst = (logSection {}).entries.map Prod.fst := rfl

theorem metaSection_fit (m : MetaSettings) : (metaSection m).Fit where
  name := show IsBareName "meta" by decide
  entries := by
    rw [metaSection_names]
    decide
  distinct := by
    rw [metaSection_names]
    decide

theorem logSection_fit (l : LogSettings) : (logSection l).Fit where
  name := show IsBareName "log" by decide
  entries := by
    rw [logSection_names]
    decide
  distinct := by
    rw [logSection_names]
    decide

theorem fields?_section {s : Toml.Section} (fit : s.Fit) :
    fields? (s.entries.map Prod.fst) (.table (s.entries.map fun e => (e.1, scalar e.2))) =
      some (s.entries.map fun e => some (scalar e.2)) := by
  have names : (s.entries.map fun e => (e.1, scalar e.2)).map Prod.fst =
      s.entries.map Prod.fst := by
    rw [List.map_map]
    rfl
  have fields := fields?_table (s.entries.map fun e => (e.1, scalar e.2))
  rw [names, List.map_map] at fields
  exact fields fit.distinct

theorem ofMetaSection?_entries (m : MetaSettings) :
    ofMetaSection? (.table ((metaSection m).entries.map fun e => (e.1, scalar e.2))) = some m := by
  have fields := fields?_section (metaSection_fit m)
  simp only [metaSection, List.map_cons, List.map_nil] at fields ⊢
  rw [ofMetaSection?, fields]
  -- one entry at a time; without a proof for each the kernel would unfold the readers
  simp -implicitDefEqProofs only [↓Option.bind_eq_bind, ↓Option.bind_some, Option.bind_some, text?,
    bool?, uint64?_int, int32?_int, role?_text]
  rfl

theorem ofLogSection?_entries (l : LogSettings) :
    ofLogSection? (.table ((logSection l).entries.map fun e => (e.1, scalar e.2))) = some l := by
  have fields := fields?_section (logSection_fit l)
  simp only [logSection, List.map_cons, List.map_nil] at fields ⊢
  simp only [ofLogSection?, fields, Option.bind_eq_bind, Option.bind_some, text?, uint64?_int]
  rfl

theorem ofToml?_document (s : Settings) :
    ofToml? (document [metaSection s.metadata, logSection s.log]) = some s := by
  have fields : fields? ["meta", "log"] (document [metaSection s.metadata, logSection s.log]) =
      some [some _, some _] := fields?_table [("meta", _), ("log", _)] (by simp)
  rw [ofToml?, fields]
  simp only [Option.bind_eq_bind, Option.bind_some, Option.elim_some, ofMetaSection?_entries,
    ofLogSection?_entries]
  rfl

theorem parse?_print (s : Settings) : parse? s.print = some s := by
  have fit : ∀ t ∈ [metaSection s.metadata, logSection s.log], t.Fit := by
    simp [metaSection_fit, logSection_fit]
  have distinct : ([metaSection s.metadata, logSection s.log].map Section.name).Nodup := by
    simp [metaSection, logSection]
  rw [parse?, print, parse?_writeSections fit distinct, Option.bind_some, ofToml?_document]

/-- The text that is written is read as it was meant, whatever the texts and numbers in it. -/
theorem load_of_save {s : Settings} {path : Path} {disk disk' : FileTree}
    (saved : s.save path disk = .ok disk') : load disk' path = .ok s := by
  unfold save at saved
  cases written : disk.write path s.print.toUTF8.data.toList with
  | error e =>
    rw [written] at saved
    cases saved
  | ok made =>
    rw [written] at saved
    cases saved
    simp only [load, FileTree.read_write written, ClusterIdFile.utf8?_toUTF8, String.ofList_toList,
      parse?_print]

/-- Settings that could be saved are loaded with every entry of both sections as it was, and
stand for the same parameters, or for none for the same reason. -/
theorem saved_settings_are_loaded (s : Settings) (path : Path) (disk disk' : FileTree)
    (saved : s.save path disk = .ok disk') :
    ∃ t, load disk' path = .ok t ∧ t.metadata = s.metadata ∧ t.log = s.log ∧
      t.options = s.options :=
  ⟨s, load_of_save saved, rfl, rfl, rfl⟩

/-- Quotes of both kinds three in a row, a backslash, a line feed, control characters, and
numbers at their limits. -/
theorem saved_settings_are_loaded_at_limits :
    let s : Settings :=
      { metadata :=
          { addresses := "m:9559, \\:1", role := .metadata, retryCount := 18446744073709551615,
            clusterIdPath := "\"\"\"\n\\\x27\x27\x27\x01\x7f\r\t\x00", readyRetry := -2147483648 }
        log :=
          { level := "\x27\"", dir := "\x27\x27\x27\n\"", file := "\\\"\x27", maxFileSize := 0 } }
    let path := Path.ofText "c.toml"
    ∃ disk', s.save path .empty = .ok disk' ∧
      ∃ t, load disk' path = .ok t ∧ t.metadata = s.metadata ∧ t.log = s.log ∧
        t.options = s.options := by
  intro s path
  have saved : s.save path .empty =
      .ok (.put ["c.toml"] (.file s.print.toUTF8.data.toList) .empty) := rfl
  exact ⟨_, saved, saved_settings_are_loaded s path .empty _ saved⟩

end Settings

end ClusterClient
