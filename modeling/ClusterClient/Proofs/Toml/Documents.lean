import ClusterClient.Proofs.Numerals
import ClusterClient.Proofs.Toml.Texts
/-!
Documents that are written are read back: tables of scalars, each under its header, with all
their entries in order.
-/
namespace ClusterClient.Toml

open Text

/-! ## Numbers and words -/

theorem digitBelow?_digit {c : Char} (digit : c.isDigit = true) :
    digitBelow? 10 c = some (c.toNat - '0'.toNat) := by
  have bounds := toNat_of_isDigit digit
  have range : '0' ≤ c ∧ c ≤ '9' := by
    simpa [Char.isDigit, Char.le_def] using digit
  rw [digitBelow?, hexDigit?, if_pos range]
  have below : c.toNat - '0'.toNat < 10 := by
    have : '0'.toNat = 48 := rfl
    omega
  simpa [Option.filter] using below

theorem moreDigits?_digits {cs : List Char} (digits : ∀ c ∈ cs, c.isDigit = true) (n : Nat) :
    moreDigits? 10 n cs = some (Nat.ofDigitChars 10 cs n) := by
  induction cs generalizing n with
  | nil => rfl
  | cons c rest ih =>
    obtain ⟨first, later⟩ := List.forall_mem_cons.mp digits
    rw [moreDigits?, digitBelow?_digit first, Option.bind_some, ih later, Nat.ofDigitChars_cons,
      Nat.mul_comm]
    rintro _ _ rfl
    exact absurd first (by decide)

theorem natural?_decimal (n : Nat) : natural? (decimal n) = some n := by
  have digits : ∀ c ∈ decimal n, c.isDigit = true := fun c => isDigit_of_mem_decimal
  have value := ofDigitChars_decimal n
  unfold natural?
  split
  · rename_i starts
    have zero := eq_zero_of_decimal starts
    subst zero
    cases starts
  · cases written : decimal n with
    | nil => exact absurd written (decimal_ne_nil n)
    | cons c rest =>
      rw [written] at digits value
      obtain ⟨first, later⟩ := List.forall_mem_cons.mp digits
      rw [digits?, digitBelow?_digit first, Option.bind_some, moreDigits?_digits later, ← value,
        Nat.ofDigitChars_cons, Nat.mul_zero, Nat.zero_add]

theorem integer?_signed (n : Int) : integer? (signed n) = some n := by
  cases n with
  | ofNat n =>
    have other : ∀ c : Char, c.isDigit = false → c ∉ decimal n := fun c other =>
      not_mem_decimal other n
    rw [signed, integer?, natural?_decimal]
    · rfl
    · exact fun rest starts => other 'x' rfl (by rw [starts]; simp)
    · exact fun rest starts => other 'o' rfl (by rw [starts]; simp)
    · exact fun rest starts => other 'b' rfl (by rw [starts]; simp)
    · exact fun rest starts => other '-' rfl (by rw [starts]; simp)
    · exact fun rest starts => other '+' rfl (by rw [starts]; simp)
  | negSucc n =>
    rw [signed, integer?, natural?_decimal]
    rfl

theorem word_append {w : List Char} (wordy : ∀ c ∈ w, isWordChar c = true) (rest : List Char) :
    word (w ++ '\n' :: rest) = (w, '\n' :: rest) := by
  have first : (w ++ '\n' :: rest).takeWhile isWordChar = w := by
    rw [List.takeWhile_append_of_pos wordy]
    exact List.append_nil w
  have later : (w ++ '\n' :: rest).dropWhile isWordChar = '\n' :: rest :=
    List.dropWhile_append_of_pos wordy
  rw [word, first, later]
  rfl

theorem readValue_word (fuel room : Nat) {w : List Char} (filled : w ≠ [])
    (wordy : ∀ c ∈ w, isWordChar c = true) (rest : List Char) :
    readValue (fuel + 1) room (w ++ '\n' :: rest) = (ofWord? w).map (·, '\n' :: rest) := by
  obtain ⟨c, cs, rfl⟩ := List.exists_cons_of_ne_nil filled
  have first : isWordChar c = true := wordy c List.mem_cons_self
  have other : ∀ d, isWordChar d = false → c ≠ d := fun d => ne_of_kind first
  have whole := word_append wordy rest
  rw [List.cons_append] at whole ⊢
  rw [readValue, whole]
  all_goals simp [other '"' rfl, other '\'' rfl, other '[' rfl, other '\x7b' rfl]

theorem isWordChar_of_isDigit {c : Char} (digit : c.isDigit = true) : isWordChar c = true := by
  simp [isWordChar, Char.isAlphanum, digit]

theorem isWordChar_signed (n : Int) : ∀ c ∈ signed n, isWordChar c = true := by
  intro c written
  rcases mem_signed written with rfl | digit
  · rfl
  · exact isWordChar_of_isDigit digit

theorem ofWord?_signed (n : Int) : ofWord? (signed n) = some (scalar (.int n)) := by
  have letter : 'e' ∉ signed n := fun written => absurd (mem_signed written) (by decide)
  rw [ofWord?, if_neg, if_neg, integer?_signed]
  · exact fun same => letter (by rw [same]; simp)
  · exact fun same => letter (by rw [same]; simp)

theorem readValue_writeScalar (fuel room : Nat) (s : Scalar) (rest : List Char) :
    readValue (fuel + 1) room (writeScalar s ++ '\n' :: rest) =
      some (scalar s, '\n' :: rest) := by
  cases s with
  | text s =>
    rw [writeScalar, readValue_writeText, String.ofList_toList]
  | int n =>
    rw [writeScalar, readValue_word fuel room (signed_ne_nil n) (isWordChar_signed n),
      ofWord?_signed]
    rfl
  | bool b =>
    cases b with
    | true =>
      exact readValue_word fuel room (List.cons_ne_nil _ _) (List.all_eq_true.mp rfl) rest
    | false =>
      exact readValue_word fuel room (List.cons_ne_nil _ _) (List.all_eq_true.mp rfl) rest

/-! ## Keys -/

/-- A name that stands without quotes. -/
def IsBareName (name : String) : Prop := name.toList ≠ [] ∧ name.toList.all isBare = true

instance (name : String) : Decidable (IsBareName name) := inferInstanceAs (Decidable (_ ∧ _))

/-- The first character of a bare name, and that nothing is passed over before it. -/
theorem IsBareName.starts {name : String} (own : IsBareName name) :
    ∃ c cs, name.toList = c :: cs ∧ isBare c = true := by
  obtain ⟨filled, bare⟩ := own
  obtain ⟨c, cs, starts⟩ := List.exists_cons_of_ne_nil filled
  exact ⟨c, cs, starts, List.all_eq_true.mp bare c (starts ▸ List.mem_cons_self)⟩

theorem skipBlank_cons {c : Char} (space : c ≠ ' ') (tab : c ≠ '\t') (rest : List Char) :
    skipBlank (c :: rest) = c :: rest := by
  rw [skipBlank]
  all_goals simp [space, tab]

theorem readName_bare {name : String} (own : IsBareName name) {d : Char}
    (ends : isBare d = false) (rest : List Char) :
    readName (name.toList ++ d :: rest) = some (name.toList, d :: rest) := by
  obtain ⟨c, cs, starts, first⟩ := own.starts
  have bare := List.all_eq_true.mp own.2
  have taken : (name.toList ++ d :: rest).takeWhile isBare = name.toList := by
    rw [List.takeWhile_append_of_pos bare, List.takeWhile_cons_of_neg (by simp [ends])]
    exact List.append_nil _
  have left : (name.toList ++ d :: rest).dropWhile isBare = d :: rest := by
    rw [List.dropWhile_append_of_pos bare, List.dropWhile_cons_of_neg (by simp [ends])]
  rw [readName, taken, left, starts]
  · rfl
  · rw [starts]
    exact fun _ same => ne_of_kind first (d := '"') rfl (List.cons.inj same).1
  · rw [starts]
    exact fun _ same => ne_of_kind first (d := '\'') rfl (List.cons.inj same).1

theorem readKey_bare (room : Nat) {name : String} (own : IsBareName name) {d : Char}
    (ends : isBare d = false) (rest : List Char)
    (last : ∀ more, skipBlank (d :: rest) ≠ '.' :: more) :
    readKey (room + 1) (name.toList ++ d :: rest) =
      some (⟨[], name⟩, skipBlank (d :: rest)) := by
  obtain ⟨c, cs, starts, first⟩ := own.starts
  have blank : skipBlank (name.toList ++ d :: rest) = name.toList ++ d :: rest := by
    rw [starts]
    exact skipBlank_cons (ne_of_kind first rfl) (ne_of_kind first rfl) _
  rw [readKey, blank, readName_bare own ends]
  simp only [String.ofList_toList]

/-! ## Statements -/

theorem writeText_starts (cs : List Char) : ∃ rest, writeText cs = '"' :: rest ∨
    writeText cs = '\'' :: rest := by
  unfold writeText
  split
  · exact ⟨_, .inl rfl⟩
  · exact ⟨_, .inr rfl⟩
  · exact ⟨_, .inl rfl⟩
  · exact ⟨_, .inr rfl⟩

theorem skipBlank_writeScalar (s : Scalar) (rest : List Char) :
    skipBlank (writeScalar s ++ rest) = writeScalar s ++ rest := by
  cases s with
  | text s =>
    obtain ⟨cs, starts | starts⟩ := writeText_starts s.toList
    · rw [writeScalar, starts]
      rfl
    · rw [writeScalar, starts]
      rfl
  | int n =>
    obtain ⟨c, cs, starts⟩ := List.exists_cons_of_ne_nil (signed_ne_nil n)
    have wordy := isWordChar_signed n c (starts ▸ List.mem_cons_self)
    rw [writeScalar, starts]
    refine skipBlank_cons ?_ ?_ _
    · rintro rfl
      cases wordy
    · rintro rfl
      cases wordy
  | bool b => cases b <;> rfl

/-- What a line with an entry states. -/
def stated (e : String × Scalar) : Statement := .entry ⟨[], e.1⟩ (scalar e.2)

/-- The header comes first. -/
def Section.statements (s : Section) : List Statement :=
  .table ⟨[], s.name⟩ :: s.entries.map stated

theorem readEntry_writeEntry (fuel room : Nat) {e : String × Scalar} (own : IsBareName e.1)
    (rest : List Char) :
    readEntry (fuel + 2) room (writeEntry e ++ rest) =
      some ((⟨[], e.1⟩, scalar e.2), '\n' :: rest) := by
  have text : writeEntry e ++ rest =
      e.1.toList ++ ' ' :: '=' :: ' ' :: (writeScalar e.2 ++ '\n' :: rest) := by
    simp [writeEntry]
  have key := readKey_bare 79 own (d := ' ') rfl ('=' :: ' ' :: (writeScalar e.2 ++ '\n' :: rest))
    (fun _ => by simp [skipBlank])
  rw [text, readEntry, nestingLimit, key]
  have value : skipBlank (' ' :: (writeScalar e.2 ++ '\n' :: rest)) =
      writeScalar e.2 ++ '\n' :: rest := skipBlank_writeScalar e.2 _
  simp only [skipBlank_cons (c := '=') (by decide) (by decide), skipBlank.eq_1, value,
    readValue_writeScalar]
  rfl

theorem skipVoid_bare {c : Char} (bare : isBare c = true) (rest : List Char) :
    skipVoid false (c :: rest) = c :: rest := by
  have other : ∀ d, isBare d = false → c ≠ d := fun d => ne_of_kind bare
  rw [skipVoid]
  all_goals simp [other ' ' rfl, other '\t' rfl, other '\n' rfl, other '\r' rfl, other '#' rfl]

/-- A statement on a line of its own. -/
theorem readStatements_line {fuel : Nat} {c : Char} {cs rest : List Char} {s : Statement}
    (starts : skipVoid false (c :: cs) = c :: cs)
    (read : readStatement fuel (c :: cs) = some (s, '\n' :: rest)) :
    readStatements (fuel + 1) (c :: cs) = (readStatements fuel rest).map (s :: ·) := by
  rw [readStatements, starts]
  simp only [read]
  rfl

theorem readStatements_entry (fuel : Nat) {e : String × Scalar} (own : IsBareName e.1)
    (rest : List Char) :
    readStatements (fuel + 3) (writeEntry e ++ rest) =
      (readStatements (fuel + 2) rest).map (stated e :: ·) := by
  obtain ⟨c, cs, starts, first⟩ := own.starts
  have read := readEntry_writeEntry fuel nestingLimit own rest
  have text : ∃ more, writeEntry e ++ rest = c :: more := ⟨_, by rw [writeEntry, starts]; rfl⟩
  obtain ⟨more, text⟩ := text
  rw [text] at read ⊢
  refine readStatements_line (skipVoid_bare first more) ?_
  have bracket : c ≠ '[' := ne_of_kind first rfl
  rw [readStatement, read]
  · rfl
  · exact fun _ same => bracket (List.cons.inj same).1
  · exact fun _ same => bracket (List.cons.inj same).1

theorem readStatements_entries (fuel : Nat) {entries : List (String × Scalar)}
    (own : ∀ name ∈ entries.map Prod.fst, IsBareName name) (rest : List Char) :
    readStatements (fuel + 2 + entries.length) (entries.flatMap writeEntry ++ rest) =
      (readStatements (fuel + 2) rest).map (entries.map stated ++ ·) := by
  induction entries with
  | nil =>
    change readStatements (fuel + 2) rest = (readStatements (fuel + 2) rest).map id
    rw [Option.map_id_fun, id]
  | cons e entries ih =>
    obtain ⟨first, others⟩ := List.forall_mem_cons.mp own
    have room : fuel + 2 + (e :: entries).length = (fuel + entries.length) + 3 := by
      rw [List.length_cons]
      omega
    have later : fuel + entries.length + 2 = fuel + 2 + entries.length := by omega
    rw [room, List.flatMap_cons, List.append_assoc, readStatements_entry _ first, later, ih others,
      Option.map_map]
    rfl

theorem readStatements_table (fuel : Nat) {name : String} (own : IsBareName name)
    (rest : List Char) :
    readStatements (fuel + 1) ('[' :: (name.toList ++ ']' :: '\n' :: rest)) =
      (readStatements fuel rest).map (.table ⟨[], name⟩ :: ·) := by
  obtain ⟨c, cs, starts, first⟩ := own.starts
  have key := readKey_bare 79 own (d := ']') rfl ('\n' :: rest) (fun _ => by simp [skipBlank])
  refine readStatements_line rfl ?_
  rw [readStatement, nestingLimit, key]
  · rfl
  · rw [starts]
    exact fun _ same => ne_of_kind first (d := '[') rfl (List.cons.inj same).1

theorem readStatements_feed (fuel : Nat) (cs : List Char) :
    readStatements fuel ('\n' :: cs) = readStatements fuel cs := by
  cases fuel with
  | zero => rfl
  | succ fuel =>
    rw [readStatements, readStatements, skipVoid]

/-! ## Sections -/

/-- All names are bare, and those of the entries differ from each other. -/
structure Section.Fit (s : Section) : Prop where
  name : IsBareName s.name
  entries : ∀ name ∈ s.entries.map Prod.fst, IsBareName name
  distinct : (s.entries.map Prod.fst).Nodup

theorem readStatements_section (fuel : Nat) {s : Section} (fit : s.Fit) (rest : List Char) :
    readStatements (fuel + 2 + s.statements.length) (s.write ++ rest) =
      (readStatements (fuel + 2) rest).map (s.statements ++ ·) := by
  have text : s.write ++ rest =
      '[' :: (s.name.toList ++ ']' :: '\n' :: (s.entries.flatMap writeEntry ++ rest)) := by
    simp [Section.write]
  have room : fuel + 2 + s.statements.length = fuel + 2 + s.entries.length + 1 := by
    simp [Section.statements, Nat.add_assoc]
  rw [text, room, readStatements_table _ fit.name, readStatements_entries _ fit.entries,
    Option.map_map]
  rfl

theorem readStatements_writeSections (fuel : Nat) {sections : List Section}
    (fit : ∀ s ∈ sections, s.Fit) :
    readStatements (fuel + 2 + (sections.flatMap Section.statements).length)
        (writeSections sections) = some (sections.flatMap Section.statements) := by
  induction sections with
  | nil => rfl
  | cons s rest ih =>
    obtain ⟨first, others⟩ := List.forall_mem_cons.mp fit
    have room : fuel + 2 + ((s :: rest).flatMap Section.statements).length =
        fuel + (rest.flatMap Section.statements).length + 2 + s.statements.length := by
      rw [List.flatMap_cons, List.length_append]
      omega
    have later : fuel + (rest.flatMap Section.statements).length + 2 =
        fuel + 2 + (rest.flatMap Section.statements).length := by omega
    cases rest with
    | nil =>
      have alone := readStatements_section fuel first []
      have ended : readStatements (fuel + 2) [] = some [] := rfl
      rw [List.append_nil, ended] at alone
      simpa [writeSections] using alone
    | cons t rest =>
      rw [room, writeSections, readStatements_section _ first, readStatements_feed, later,
        ih others]
      · rfl
      · exact List.cons_ne_nil _ _

theorem length_statements_le (sections : List Section) :
    (sections.flatMap Section.statements).length ≤ (writeSections sections).length := by
  have entry : ∀ entries : List (String × Scalar),
      entries.length ≤ (entries.flatMap writeEntry).length := by
    intro entries
    induction entries with
    | nil => exact Nat.zero_le _
    | cons e rest ih =>
      rw [List.flatMap_cons, List.length_append, List.length_cons, writeEntry, List.length_append,
        List.length_singleton]
      omega
  have whole : ∀ s : Section, s.statements.length ≤ s.write.length := by
    intro s
    have := entry s.entries
    simp only [Section.statements, Section.write, List.length_cons, List.length_map,
      List.length_append]
    omega
  induction sections with
  | nil => exact Nat.zero_le _
  | cons s rest ih =>
    have first := whole s
    rw [List.flatMap_cons, List.length_append]
    cases rest with
    | nil => simpa [writeSections] using first
    | cons t rest =>
      rw [writeSections, List.length_append, List.length_cons]
      · omega
      · exact List.cons_ne_nil _ _

/-! ## Tables -/

/-- A place that is not among the first entries is looked for behind them. -/
theorem alter_append (f : Option Node → Option Node) {name : String} {front : Entries}
    (new : name ∉ front.map Prod.fst) (more : Entries) :
    alter f name (front ++ more) = (alter f name more).map (front ++ ·) := by
  induction front with
  | nil =>
    change alter f name more = (alter f name more).map id
    rw [Option.map_id_fun, id]
  | cons e front ih =>
    rw [List.map_cons, List.mem_cons, not_or] at new
    rw [List.cons_append, alter, if_neg (Ne.symm new.1), ih new.2, Option.map_map]
    rfl

theorem alter_new (f : Option Node → Option Node) {name : String} {entries : Entries}
    (new : name ∉ entries.map Prod.fst) :
    alter f name entries = (f none).map fun n => entries ++ [(name, n)] := by
  have behind := alter_append f new []
  rw [List.append_nil] at behind
  rw [behind, alter, Option.map_map]
  rfl

/-- The place that an entry makes in its table. -/
def kept (e : String × Scalar) : String × Node := (e.1, .value (scalar e.2))

theorem add_table {d : Draft} {name : String} (new : name ∉ d.root.map Prod.fst) :
    d.add (.table ⟨[], name⟩) = some ⟨[name], d.root ++ [(name, .table .header [])]⟩ := by
  change (alter openTable name d.root).map _ = _
  rw [alter_new _ new]
  rfl

theorem add_entry {name : String} {root done : Entries} {e : String × Scalar}
    (apart : name ∉ root.map Prod.fst) (new : e.1 ∉ done.map Prod.fst) :
    Draft.add ⟨[name], root ++ [(name, .table .header done)]⟩ (stated e) =
      some ⟨[name], root ++ [(name, .table .header (done ++ [kept e]))]⟩ := by
  have inside : assign ⟨[], e.1⟩ (scalar e.2) .header done = some (done ++ [kept e]) := by
    simp only [assign, descend, alter_new _ new]
    rfl
  simp only [Draft.add, stated, descend, alter_append _ apart, alter, inside]
  rfl

/-- The entries below a header come behind those that its table has already. -/
theorem foldlM_entries {name : String} {root : Entries} (apart : name ∉ root.map Prod.fst)
    (done : Entries) {entries : List (String × Scalar)}
    (distinct : (done.map Prod.fst ++ entries.map Prod.fst).Nodup) :
    (entries.map stated).foldlM Draft.add ⟨[name], root ++ [(name, .table .header done)]⟩ =
      some ⟨[name], root ++ [(name, .table .header (done ++ entries.map kept))]⟩ := by
  induction entries generalizing done with
  | nil =>
    rw [List.map_nil, List.map_nil, List.append_nil]
    rfl
  | cons e rest ih =>
    have new : e.1 ∉ done.map Prod.fst := fun here =>
      (List.nodup_append.mp distinct).2.2 _ here _ (by simp) rfl
    rw [List.map_cons, List.foldlM_cons, add_entry apart new, Option.bind_eq_bind, Option.bind_some,
      ih]
    · simp
    · simpa [kept] using distinct

def Section.kept (s : Section) : String × Node := (s.name, .table .header (s.entries.map Toml.kept))

theorem foldlM_section {s : Section} (fit : s.Fit) {d : Draft}
    (new : s.name ∉ d.root.map Prod.fst) :
    s.statements.foldlM Draft.add d = some ⟨[s.name], d.root ++ [s.kept]⟩ := by
  have all := foldlM_entries new [] (by simpa using fit.distinct)
  rw [Section.statements, List.foldlM_cons, add_table new]
  simp only [Option.bind_eq_bind, Option.bind_some]
  rw [all]
  rfl

theorem foldlM_sections (root : Entries) {sections : List Section} (fit : ∀ s ∈ sections, s.Fit)
    (distinct : (root.map Prod.fst ++ sections.map Section.name).Nodup) (here : List String) :
    ∃ last, (sections.flatMap Section.statements).foldlM Draft.add ⟨here, root⟩ =
      some ⟨last, root ++ sections.map Section.kept⟩ := by
  induction sections generalizing root here with
  | nil => exact ⟨here, by simp⟩
  | cons s rest ih =>
    obtain ⟨first, others⟩ := List.forall_mem_cons.mp fit
    have new : s.name ∉ root.map Prod.fst := fun there =>
      (List.nodup_append.mp distinct).2.2 _ there _ (by simp) rfl
    have later : ((root ++ [s.kept]).map Prod.fst ++ rest.map Section.name).Nodup := by
      simpa [Section.kept] using distinct
    obtain ⟨last, made⟩ := ih (root ++ [s.kept]) others later [s.name]
    refine ⟨last, ?_⟩
    rw [List.flatMap_cons, List.foldlM_append, foldlM_section first new, Option.bind_eq_bind,
      Option.bind_some]
    simpa using made

/-- What the sections mean. -/
def document (sections : List Section) : Toml :=
  .table (sections.map fun s => (s.name, .table (s.entries.map fun e => (e.1, scalar e.2))))

theorem finishedEntries_eq_map (entries : Entries) :
    finishedEntries entries = entries.map fun e => (e.1, e.2.finished) := by
  induction entries with
  | nil => rfl
  | cons e rest ih => rw [finishedEntries, ih, List.map_cons]

theorem ofStatements?_sections {sections : List Section} (fit : ∀ s ∈ sections, s.Fit)
    (distinct : (sections.map Section.name).Nodup) :
    ofStatements? (sections.flatMap Section.statements) = some (document sections) := by
  obtain ⟨last, made⟩ := foldlM_sections [] fit (by simpa using distinct) []
  rw [ofStatements?, made, List.nil_append, Option.map_some, document]
  simp [finishedEntries_eq_map, Section.kept, Node.finished, kept]

/-- What is written is read back as it was meant, with all sections and entries in order. -/
theorem parse?_writeSections {sections : List Section} (fit : ∀ s ∈ sections, s.Fit)
    (distinct : (sections.map Section.name).Nodup) :
    parse? (String.ofList (writeSections sections)) = some (document sections) := by
  have marked : ∀ rest, writeSections sections ≠ '\ufeff' :: rest := by
    intro rest same
    match sections with
    | [] => cases same
    | [s] => exact absurd (List.cons.inj same).1 (by decide)
    | s :: t :: more => exact absurd (List.cons.inj same).1 (by decide)
  have few := length_statements_le sections
  obtain ⟨fuel, room⟩ : ∃ fuel, 3 * (writeSections sections).length + 3 =
      fuel + 2 + (sections.flatMap Section.statements).length :=
    ⟨3 * (writeSections sections).length + 1 - (sections.flatMap Section.statements).length,
      by omega⟩
  have read := readStatements_writeSections fuel fit
  rw [← room] at read
  unfold parse?
  rw [String.toList_ofList]
  split
  · rename_i rest mark
    exact absurd mark (marked rest)
  · simp only [read]
    exact ofStatements?_sections fit distinct

end ClusterClient.Toml
