import ClusterClient.Host.Parser
import ClusterClient.Proofs.Numerals
import Mathlib.Data.List.DropRight
import Mathlib.Data.List.Forall2
/-!
Addresses written and read back. An address that could be read, or that has a name which does
not start with a blank, is read back from its text; so is a list of those that were read. A
list is read item by item, and the first item that is no address decides what the fault is.
-/
namespace ClusterClient

namespace Text

theorem splitAt_eq_splitOn (sep : Char) (cs : List Char) : splitAt sep cs = cs.splitOn sep := by
  induction cs with
  | nil => rfl
  | cons c rest ih =>
    rw [splitAt, List.splitOn_cons_eq_if_modifyHead, ih]
    simp only [beq_iff_eq]
    split
    · rfl
    · cases pieces : rest.splitOn sep with
      | nil => exact absurd pieces (List.splitOn_ne_nil sep rest)
      | cons piece more => rfl

theorem not_mem_of_mem_splitOn {sep : Char} {cs piece : List Char}
    (cut : piece ∈ cs.splitOn sep) : sep ∉ piece := by
  induction cs generalizing piece with
  | nil =>
    rw [List.splitOn_nil, List.mem_singleton] at cut
    exact cut ▸ List.not_mem_nil
  | cons c rest ih =>
    rw [List.splitOn_cons_eq_if_modifyHead] at cut
    simp only [beq_iff_eq] at cut
    split at cut
    · rcases List.mem_cons.mp cut with rfl | later
      · exact List.not_mem_nil
      · exact ih later
    · rename_i other
      cases pieces : rest.splitOn sep with
      | nil => exact absurd pieces (List.splitOn_ne_nil sep rest)
      | cons first more =>
        rw [pieces, List.modifyHead_cons] at cut
        rw [pieces] at ih
        rcases List.mem_cons.mp cut with rfl | later
        · rw [List.mem_cons, not_or]
          exact ⟨Ne.symm other, ih List.mem_cons_self⟩
        · exact ih (List.mem_cons_of_mem _ later)

theorem cutLast?_eq_none {sep : Char} {cs : List Char} (absent : sep ∉ cs) :
    cutLast? sep cs = none := by
  induction cs with
  | nil => rfl
  | cons c rest ih =>
    rw [List.mem_cons, not_or] at absent
    rw [cutLast?, ih absent.2]
    exact if_neg (Ne.symm absent.1)

theorem cutLast?_append {sep : Char} (before : List Char) {after : List Char}
    (absent : sep ∉ after) : cutLast? sep (before ++ sep :: after) = some (before, after) := by
  induction before with
  | nil =>
    rw [List.nil_append, cutLast?, cutLast?_eq_none absent]
    exact if_pos rfl
  | cons c rest ih => rw [List.cons_append, cutLast?, ih]

theorem eq_of_cutLast? {sep : Char} {cs before after : List Char}
    (cut : cutLast? sep cs = some (before, after)) : cs = before ++ sep :: after := by
  induction cs generalizing before with
  | nil => cases cut
  | cons c rest ih =>
    rw [cutLast?] at cut
    split at cut
    · rename_i later
      cases cut
      rw [List.cons_append, ← ih later]
    · split at cut
      · rename_i here
        cases cut
        rw [here, List.nil_append]
      · cases cut

/-! ## Blanks at the ends -/

theorem trim_front (cs : List Char) : trim cs <+: trimStart cs :=
  List.rdropWhile_prefix isBlank (trimStart cs)

theorem mem_of_mem_trim {cs : List Char} {c : Char} (here : c ∈ trim cs) : c ∈ cs :=
  (List.dropWhile_sublist _).subset ((trim_front cs).subset here)

theorem not_isBlank_of_trim {cs rest : List Char} {c : Char} (starts : trim cs = c :: rest) :
    isBlank c = false := by
  obtain ⟨cut, whole⟩ := trim_front cs
  have start : cs.dropWhile isBlank = c :: (rest ++ cut) := by
    rw [← List.cons_append, ← starts]
    exact whole.symm
  have first := List.head?_dropWhile_not isBlank cs
  rw [start] at first
  simpa using first

theorem trim_eq_nil_iff {cs : List Char} : trim cs = [] ↔ ∀ c ∈ cs, isBlank c = true := by
  constructor
  · intro blank
    have all := List.rdropWhile_eq_nil_iff.mp blank
    cases start : trimStart cs with
    | nil => exact List.dropWhile_eq_nil_iff.mp start
    | cons c rest =>
      have first := List.head?_dropWhile_not isBlank cs
      rw [show cs.dropWhile isBlank = c :: rest from start] at first
      have other := all c (start ▸ List.mem_cons_self)
      simp [other] at first
  · intro blank
    have start : trimStart cs = [] := List.dropWhile_eq_nil_iff.mpr blank
    rw [trim, start]
    rfl

/-- Blanks inside are kept. -/
theorem trim_of_ends {c : Char} {cs : List Char} (starts : isBlank c = false)
    (ends : ∀ d, (c :: cs).getLast? = some d → isBlank d = false) : trim (c :: cs) = c :: cs := by
  have start : trimStart (c :: cs) = c :: cs :=
    List.dropWhile_cons_of_neg (by rw [starts]; exact Bool.false_ne_true)
  rw [trim, start]
  refine List.rdropWhile_eq_self_iff.mpr fun some => ?_
  rw [ends _ (List.getLast?_eq_some_getLast some)]
  exact Bool.false_ne_true

end Text

/-! ## One computation for each item of a list -/

section Each

variable {α β ε : Type} {f : α → Except ε β}

theorem exists_of_mem {R : α → β → Prop} {l : List α} {ys : List β} (all : List.Forall₂ R l ys)
    {y : β} (here : y ∈ ys) : ∃ x ∈ l, R x y := by
  induction all with
  | nil => cases here
  | cons own _ ih =>
    rcases List.mem_cons.mp here with rfl | later
    · exact ⟨_, List.mem_cons_self, own⟩
    · obtain ⟨x, there, own⟩ := ih later
      exact ⟨x, List.mem_cons_of_mem _ there, own⟩

theorem mapM_eq_ok_iff {l : List α} {ys : List β} :
    l.mapM f = .ok ys ↔ List.Forall₂ (fun x y => f x = .ok y) l ys := by
  induction l generalizing ys with
  | nil =>
    rw [List.mapM_nil, List.forall₂_nil_left_iff]
    exact ⟨fun h => (Except.ok.inj h).symm, fun h => h ▸ rfl⟩
  | cons x rest ih =>
    rw [List.mapM_cons, List.forall₂_cons_left_iff]
    cases here : f x with
    | error e => exact ⟨nofun, fun ⟨_, _, failed, _⟩ => nomatch failed⟩
    | ok y =>
      change (rest.mapM f >>= fun more => pure (y :: more)) = .ok ys ↔ _
      cases later : rest.mapM f with
      | error e =>
        refine ⟨nofun, fun ⟨_, more, _, all, _⟩ => ?_⟩
        exact nomatch later.symm.trans (ih.mpr all)
      | ok more =>
        constructor
        · intro made
          exact ⟨y, more, rfl, ih.mp later, (Except.ok.inj made).symm⟩
        · rintro ⟨_, _, ⟨⟩, all, rfl⟩
          cases later.symm.trans (ih.mpr all)
          rfl

theorem mapM_eq_error_iff {l : List α} {e : ε} :
    l.mapM f = .error e ↔ ∃ before x after, l = before ++ x :: after ∧
      (∀ b ∈ before, ∃ y, f b = .ok y) ∧ f x = .error e := by
  induction l with
  | nil => exact ⟨nofun, fun ⟨_, _, _, split, _⟩ => absurd split (by simp)⟩
  | cons x rest ih =>
    rw [List.mapM_cons]
    constructor
    · intro failed
      cases here : f x with
      | error e' =>
        rw [here] at failed
        cases failed
        exact ⟨[], x, rest, rfl, by simp, here⟩
      | ok y =>
        rw [here] at failed
        cases later : rest.mapM f with
        | ok more =>
          rw [later] at failed
          cases failed
        | error e' =>
          rw [later] at failed
          cases failed
          obtain ⟨before, z, after, rfl, fine, first⟩ := ih.mp later
          exact ⟨x :: before, z, after, rfl,
            List.forall_mem_cons.mpr ⟨⟨y, here⟩, fine⟩, first⟩
    · rintro ⟨before, z, after, split, fine, first⟩
      cases before with
      | nil =>
        cases split
        rw [first]
        rfl
      | cons b before =>
        obtain ⟨rfl, rfl⟩ := List.cons.inj split
        obtain ⟨⟨y, here⟩, fine⟩ := List.forall_mem_cons.mp fine
        rw [here, ih.mpr ⟨before, z, after, rfl, fine, first⟩]
        rfl

end Each

namespace Host

open Text

/-- What stands between the commas of a text, without the blanks around it, as far as it is
not blank altogether. -/
def listed (s : String) : List String :=
  ((s.toList.splitOn ',').filter fun piece => !piece.all isBlank).map fun piece =>
    String.ofList (trim piece)

theorem items_eq_listed (s : String) : items s = listed s := by
  rw [items, listed, splitAt_eq_splitOn]
  generalize s.toList.splitOn ',' = pieces
  induction pieces with
  | nil => rfl
  | cons piece rest ih =>
    have blank : (trim piece).isEmpty = piece.all isBlank := by
      rw [Bool.eq_iff_iff, List.isEmpty_iff, trim_eq_nil_iff, List.all_eq_true]
    rw [List.map_cons, List.filterMap_cons, ih, blank, List.filter_cons]
    cases piece.all isBlank <;> rfl

theorem toList_text (h : Host) :
    h.text.toList = h.name.toList ++ ':' :: decimal h.port.toNat := by
  simp [text, showNat]

theorem getLast?_text (h : Host) : h.text.toList.getLast? = (decimal h.port.toNat).getLast? := by
  rw [toList_text, List.append_cons, List.getLast?_append_of_ne_nil _ (decimal_ne_nil _)]

theorem trim_text {h : Host} {c : Char} {rest : List Char} (name : h.name.toList = c :: rest)
    (starts : isBlank c = false) : trim h.text.toList = h.text.toList := by
  have last := getLast?_text h
  rw [toList_text, name, List.cons_append] at last ⊢
  refine trim_of_ends starts fun d ends => ?_
  have digit := List.mem_of_getLast? (last.symm.trans ends)
  exact isBlank_of_isDigit (isDigit_of_mem_decimal digit)

theorem parse_text {h : Host} {c : Char} {rest : List Char} (name : h.name.toList = c :: rest)
    (starts : isBlank c = false) : parse h.text = .ok h := by
  have cut := cutLast?_append (c :: rest) (not_mem_decimal (c := ':') rfl h.port.toNat)
  have read : readNat 65535 (decimal h.port.toNat) = .ok h.port.toNat :=
    readNat_decimal (Nat.le_of_lt_succ h.port.toNat_lt)
  rw [parse, trim_text name starts, toList_text, name, cut]
  simp only [read]
  rw [← name, String.ofList_toList]
  simp

/-- An address that could be read has a name that does not start with a blank. -/
theorem name_of_parse {s : String} {h : Host} (read : parse s = .ok h) :
    ∃ c rest, h.name.toList = c :: rest ∧ isBlank c = false ∧ ∀ d ∈ c :: rest, d ∈ s.toList := by
  unfold parse at read
  split at read
  · cases read
  · cases read
  · rename_i name port named cut
    split at read
    · cases read
    · cases read
      have whole := eq_of_cutLast? cut
      cases name with
      | nil => exact absurd rfl named
      | cons c rest =>
        refine ⟨c, rest, String.toList_ofList, not_isBlank_of_trim whole, fun d here => ?_⟩
        exact mem_of_mem_trim (whole ▸ List.mem_append_left _ here)

theorem parse_text_of_parse {s : String} {h : Host} (read : parse s = .ok h) :
    parse h.text = .ok h := by
  obtain ⟨c, rest, name, starts, _⟩ := name_of_parse read
  exact parse_text name starts

/-! ## Lists -/

theorem parseList_eq_mapM (s : String) : parseList s = (listed s).mapM parse := by
  rw [parseList, items_eq_listed]

theorem comma_not_mem_listed {s item : String} (here : item ∈ listed s) : ',' ∉ item.toList := by
  obtain ⟨piece, cut, rfl⟩ := List.mem_map.mp here
  rw [String.toList_ofList]
  exact fun comma =>
    not_mem_of_mem_splitOn (List.mem_of_mem_filter cut) (mem_of_mem_trim comma)

/-- A text that is an item as it stands. -/
def IsItem (t : String) : Prop := ',' ∉ t.toList ∧ trim t.toList = t.toList ∧ t.toList ≠ []

theorem listed_intercalate {ts : List String} (items : ∀ t ∈ ts, IsItem t) :
    listed (",".intercalate ts) = ts := by
  cases ts with
  | nil => rfl
  | cons first rest =>
    have pieces : (",".intercalate (first :: rest)).toList.splitOn ',' =
        (first :: rest).map String.toList := by
      rw [String.toList_intercalate]
      refine List.splitOn_intercalate ',' (fun cs here => ?_) (by simp)
      obtain ⟨t, listed, rfl⟩ := List.mem_map.mp here
      exact (items t listed).1
    rw [listed, pieces, List.filter_eq_self.mpr, List.map_map]
    · refine (List.map_congr_left fun t here => ?_).trans (List.map_id _)
      change String.ofList (trim t.toList) = t
      rw [(items t here).2.1, String.ofList_toList]
    · intro cs here
      obtain ⟨t, listed, rfl⟩ := List.mem_map.mp here
      rw [Bool.not_eq_true', ← Bool.not_eq_true, List.all_eq_true, ← trim_eq_nil_iff]
      rw [(items t listed).2.1]
      exact (items t listed).2.2

theorem isItem_text {s : String} {h : Host} (read : parse s = .ok h) (plain : ',' ∉ s.toList) :
    IsItem h.text := by
  obtain ⟨c, rest, name, starts, taken⟩ := name_of_parse read
  refine ⟨?_, trim_text name starts, ?_⟩
  · rw [toList_text, name, List.mem_append, List.mem_cons (a := ',') (b := ':')]
    rintro (here | here | here)
    · exact plain (taken _ here)
    · exact absurd here (by decide)
    · exact not_mem_decimal rfl _ here
  · rw [toList_text]
    simp

theorem parseList_texts {s : String} {hs : List Host} (read : parseList s = .ok hs) :
    parseList (",".intercalate (hs.map text)) = .ok hs := by
  rw [parseList_eq_mapM, mapM_eq_ok_iff] at read
  have each : ∀ h ∈ hs, ∃ item ∈ listed s, parse item = .ok h := fun h => exists_of_mem read
  have items : ∀ t ∈ hs.map text, IsItem t := by
    intro t here
    obtain ⟨h, listed, rfl⟩ := List.mem_map.mp here
    obtain ⟨item, origin, own⟩ := each h listed
    exact isItem_text own (comma_not_mem_listed origin)
  rw [parseList_eq_mapM, listed_intercalate items, mapM_eq_ok_iff, List.forall₂_map_left_iff,
    List.forall₂_same]
  intro h here
  obtain ⟨item, _, own⟩ := each h here
  exact parse_text_of_parse own

/-- Addresses that were read, alone or in a list, are read back from their texts, and so is
every address with a name that does not start with a blank. A list is read item by item; the
first item that is no address decides what the fault is. -/
theorem addresses_read_back :
    (∀ s h, parse s = .ok h → parse h.text = .ok h) ∧
    (∀ (h : Host) c rest, h.name.toList = c :: rest → isBlank c = false →
      parse h.text = .ok h) ∧
    ∀ s,
      (∀ hs, parseList s = .ok hs →
        List.Forall₂ (fun item h => parse item = .ok h) (listed s) hs ∧
        parseList (",".intercalate (hs.map text)) = .ok hs) ∧
      ∀ fault, parseList s = .error fault ↔ ∃ before item after,
        listed s = before ++ item :: after ∧ (∀ i ∈ before, ∃ h, parse i = .ok h) ∧
        parse item = .error fault := by
  refine ⟨fun s h => parse_text_of_parse, fun h c rest => parse_text,
    fun s => ⟨fun hs read => ⟨?_, parseList_texts read⟩, fun fault => ?_⟩⟩
  · rw [parseList_eq_mapM, mapM_eq_ok_iff] at read
    exact read
  · rw [parseList_eq_mapM, mapM_eq_error_iff]

theorem addresses_read_back_in_sample :
    parse " a:b:+07 " = .ok ⟨"a:b", 7⟩ ∧ parse (text ⟨"a:b", 7⟩) = .ok ⟨"a:b", 7⟩ ∧
    parse (text ⟨":a b ", 0⟩) = .ok ⟨":a b ", 0⟩ ∧
    parseList " a:1, ,b :2," = .ok [⟨"a", 1⟩, ⟨"b ", 2⟩] ∧
    parseList (",".intercalate [text ⟨"a", 1⟩, text ⟨"b ", 2⟩]) = .ok [⟨"a", 1⟩, ⟨"b ", 2⟩] ∧
    parseList "a:1, b,c:x" = .error (.invalidInput (.missingPort "b")) := by
  obtain ⟨single, named, lists⟩ := addresses_read_back
  have one : parse " a:b:+07 " = .ok ⟨"a:b", 7⟩ := rfl
  have list : parseList " a:1, ,b :2," = .ok [⟨"a", 1⟩, ⟨"b ", 2⟩] := rfl
  refine ⟨one, single _ _ one, named _ ':' _ rfl rfl, list, ((lists _).1 _ list).2, ?_⟩
  exact ((lists _).2 _).mpr
    ⟨["a:1"], "b", ["c:x"], rfl, List.forall_mem_singleton.mpr ⟨_, rfl⟩, rfl⟩

end Host

end ClusterClient
