import ClusterClient.ClusterIdFile
import ClusterClient.Proofs.Disk
import ClusterClient.Proofs.Numerals
/-!
The file with the id of the cluster: an id that could be saved is positive and is read back,
and no other id than a positive one is ever read.
-/
namespace ClusterClient

namespace ClusterIdFile

theorem utf8?_toUTF8 (s : String) : utf8? s.toUTF8.data.toList = some s.toList := by
  have same : (⟨s.toUTF8.data.toList.toArray⟩ : ByteArray) = s.toByteArray := by
    simp [String.toUTF8]
  rw [utf8?, same, String.fromUTF8?, dif_pos s.isValidUTF8]
  rfl

theorem utf8?_content (id : ClusterId) :
    utf8? (content id) = some (Text.signed id.toInt ++ ['\n']) := by
  rw [content, utf8?_toUTF8, String.toList_append, Text.showInt, String.toList_ofList]
  rfl

theorem parse_signed (f : ClusterIdFile) {id : ClusterId} (positive : 0 < id) :
    f.parse (Text.signed id.toInt ++ ['\n']) = .ok id := by
  have above : 0 < id.toInt := Int64.lt_iff_toInt_lt.mp positive
  have below : id.toInt < 2 ^ 63 := id.toInt_lt
  obtain ⟨n, value⟩ := Int.eq_ofNat_of_zero_le above.le
  have digits : ∀ c ∈ Text.signed id.toInt, c.isDigit = true := by
    rw [value]
    exact fun c => Text.isDigit_of_mem_decimal
  have line : (Text.signed id.toInt ++ ['\n']).takeWhile (· != '\n') = Text.signed id.toInt := by
    rw [List.takeWhile_append_of_pos fun c here => bne_iff_ne.mpr fun feed => ?_]
    · exact List.append_nil _
    · exact absurd (digits c here) (by rw [feed]; decide)
  have read : Text.readInt ((1 <<< 63) - 1) (Text.signed id.toInt) = .ok id.toInt :=
    Text.readInt_signed (by omega) (by omega)
  rw [parse, line, Text.trim_eq_self fun c here => Text.isBlank_of_isDigit (digits c here)]
  simp only [read, if_neg (not_le.mpr above), Int64.ofInt_toInt]

theorem parse_positive {f : ClusterIdFile} {cs : List Char} {id : ClusterId}
    (read : f.parse cs = .ok id) : 0 < id := by
  simp only [parse] at read
  split at read
  · cases read
  · rename_i n value
    split at read
    · cases read
    · rename_i positive
      cases read
      have below := Text.readInt_le value
      rw [Int64.lt_iff_toInt_lt, Int64.toInt_ofInt_of_le (by omega) (by omega)]
      exact not_le.mp positive

/-- Whatever is on disk, no other id than a positive one is read. -/
theorem load_positive {f : ClusterIdFile} {disk : FileTree} {id : ClusterId}
    (loaded : f.load disk = .ok (some id)) : 0 < id := by
  unfold load at loaded
  split at loaded
  · cases loaded
  · cases loaded
  · split at loaded
    · cases loaded
    · rename_i cs _
      cases read : f.parse cs with
      | error e =>
        rw [read] at loaded
        cases loaded
      | ok n =>
        rw [read] at loaded
        cases loaded
        exact parse_positive read

theorem load_of_read {f : ClusterIdFile} {disk : FileTree} {id : ClusterId} (positive : 0 < id)
    (read : disk.read f.path = .ok (content id)) : f.load disk = .ok (some id) := by
  simp only [load, read, utf8?_content, parse_signed f positive]
  rfl

/-- An id that could be saved is positive, and is read back. -/
theorem load_persist {f : ClusterIdFile} {id : ClusterId} {disk disk' : FileTree}
    (saved : f.persist id disk = (disk', .ok ())) : 0 < id ∧ f.load disk' = .ok (some id) := by
  unfold persist at saved
  split at saved
  · cases saved
  · rename_i positive
    have positive : 0 < id := Int64.not_le.mp positive
    refine ⟨positive, load_of_read positive ?_⟩
    split at saved
    · cases saved
    · cases saved
    · split at saved
      · cases saved
      · rename_i written
        obtain ⟨p, leads, here⟩ := FileTree.write_ok written
        split at saved
        · cases saved
        · rename_i moved
          cases saved
          exact FileTree.move_ok leads here moved

end ClusterIdFile

end ClusterClient
