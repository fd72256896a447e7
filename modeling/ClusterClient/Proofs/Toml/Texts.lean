import ClusterClient.Toml.Reader
import ClusterClient.Toml.Writer
/-!
Texts that are written are read back, whichever of the four forms they are given.
-/
namespace ClusterClient.Toml

open Text

/-! ## Single characters -/

theorem codePoint?_hex : ∀ n < 128, ∃ a b c d,
    (hex 4 n).map Char.toUpper = [a, b, c, d] ∧
      codePoint? [a, b, c, d] = some (Char.ofNat n) := by
  intro n below
  have shape : ∀ n < 128, ((hex 4 n).map Char.toUpper).length = 4 ∧
      codePoint? ((hex 4 n).map Char.toUpper) = some (Char.ofNat n) := by decide +kernel
  obtain ⟨length, value⟩ := shape n below
  generalize (hex 4 n).map Char.toUpper = digits at length value
  match digits, length with
  | [a, b, c, d], _ => exact ⟨a, b, c, d, rfl, value⟩

theorem isPlain_of_not_isControl {c : Char} (control : isControl c = false) (feed : c ≠ '\n') :
    isPlain c = true := by
  simp only [isControl, isPlain, Bool.and_eq_false_iff, Bool.or_eq_false_iff, Bool.or_eq_true,
    Bool.and_eq_true, bne_eq_false_iff_eq, bne_iff_ne, beq_eq_false_iff_ne, beq_iff_eq,
    decide_eq_true_eq, decide_eq_false_iff_not] at control ⊢
  rcases control with (tab | feed') | ⟨visible, delete⟩
  · exact .inl tab
  · exact absurd feed' feed
  · exact .inr ⟨Nat.not_lt.mp visible, delete⟩

/-- How a character is written: as it is, with one letter or with its number. -/
theorem escape_cases (c : Char) :
    (escape c = [c] ∧ isPlain c = true ∧ c ≠ '"' ∧ c ≠ '\\') ∨
    (∃ x, escape c = ['\\', x] ∧ simpleEscape? x = some c ∧ x ≠ 'u' ∧ x ≠ 'U') ∨
    ∃ a b d e, escape c = ['\\', 'u', a, b, d, e] ∧ codePoint? [a, b, d, e] = some c := by
  unfold escape
  split
  · exact .inr (.inl ⟨_, rfl, rfl, by decide, by decide⟩)
  · exact .inr (.inl ⟨_, rfl, rfl, by decide, by decide⟩)
  · exact .inr (.inl ⟨_, rfl, rfl, by decide, by decide⟩)
  · exact .inr (.inl ⟨_, rfl, rfl, by decide, by decide⟩)
  · exact .inr (.inl ⟨_, rfl, rfl, by decide, by decide⟩)
  · exact .inr (.inl ⟨_, rfl, rfl, by decide, by decide⟩)
  · exact .inr (.inl ⟨_, rfl, rfl, by decide, by decide⟩)
  · rename_i quote backslash _ _ feed _ _
    by_cases control : isControl c = true
    · rw [if_pos control]
      have below : c.toNat < 128 := by
        simp only [isControl, Bool.and_eq_true, Bool.or_eq_true, decide_eq_true_eq,
          beq_iff_eq] at control
        omega
      obtain ⟨a, b, d, e, digits, value⟩ := codePoint?_hex c.toNat below
      rw [Char.ofNat_toNat] at value
      exact .inr (.inr ⟨a, b, d, e, by rw [digits], value⟩)
    · rw [if_neg control]
      have plain := isPlain_of_not_isControl (Bool.eq_false_iff.mpr control) feed
      exact .inl ⟨rfl, plain, quote, backslash⟩

/-! ## One line -/

theorem readBasic_plain {c : Char} (plain : isPlain c = true) (quote : c ≠ '"')
    (backslash : c ≠ '\\') (rest : List Char) :
    readBasic (c :: rest) = (readBasic rest).map fun (cs, rest) => (c :: cs, rest) := by
  rw [readBasic, if_pos plain]
  · exact quote
  · exact fun _ _ _ _ _ h => absurd h backslash
  · exact fun _ _ _ _ _ _ _ _ _ h => absurd h backslash
  · exact fun _ _ h => absurd h backslash

theorem readBasic_escape (c : Char) (rest : List Char) :
    readBasic (escape c ++ rest) = (readBasic rest).map fun (cs, rest) => (c :: cs, rest) := by
  rcases escape_cases c with ⟨form, plain, quote, backslash⟩ | ⟨x, form, back, u, U⟩ |
    ⟨a, b, d, e, form, back⟩
  · rw [form]
    exact readBasic_plain plain quote backslash rest
  · rw [form, List.cons_append, List.cons_append, List.nil_append, readBasic, back]
    · exact fun _ _ _ _ _ h => absurd h u
    · exact fun _ _ _ _ _ _ _ _ _ h => absurd h U
  · rw [form]
    simp only [List.cons_append, List.nil_append, readBasic, back]

theorem readBasic_flatMap (cs rest : List Char) :
    readBasic (cs.flatMap escape ++ '"' :: rest) = some (cs, rest) := by
  induction cs with
  | nil => rfl
  | cons c cs ih =>
    rw [List.flatMap_cons, List.append_assoc, readBasic_escape, ih]
    rfl

theorem readLiteral_append {cs : List Char} (plain : ∀ c ∈ cs, isPlain c = true)
    (quote : '\'' ∉ cs) (rest : List Char) :
    readLiteral (cs ++ '\'' :: rest) = some (cs, rest) := by
  induction cs with
  | nil => rfl
  | cons c cs ih =>
    obtain ⟨first, plain⟩ := List.forall_mem_cons.mp plain
    rw [List.mem_cons, not_or] at quote
    rw [List.cons_append, readLiteral, if_pos first, ih plain quote.2]
    · rfl
    · exact Ne.symm quote.1

/-! ## Several lines -/

/-- A quote may stand for itself if no two others follow. -/
theorem readLongBasic_plain {c : Char} {rest : List Char} (plain : isPlain c = true ∨ c = '\n')
    (backslash : c ≠ '\\') (quote : ∀ more, c = '"' → rest ≠ '"' :: '"' :: more) :
    readLongBasic false (c :: rest) =
      (readLongBasic false rest).map fun (cs, rest) => (c :: cs, rest) := by
  have cr : c ≠ '\r' := by
    rintro rfl
    simp [isPlain] at plain
  rw [readLongBasic, if_pos (by simpa using plain)]
  · exact quote
  all_goals simp [backslash, cr]

theorem readLongBasic_letter {x c : Char} (letter : simpleEscape? x = some c) (u : x ≠ 'u')
    (U : x ≠ 'U') (rest : List Char) :
    readLongBasic false ('\\' :: x :: rest) =
      (readLongBasic false rest).map fun (cs, rest) => (c :: cs, rest) := by
  rw [readLongBasic, letter]
  · exact fun _ _ _ _ _ h => absurd h u
  · exact fun _ _ _ _ _ _ _ _ _ h => absurd h U

theorem readLongBasic_escape {c : Char} (other : c ≠ '"') (rest : List Char) :
    readLongBasic false (escape c ++ rest) =
      (readLongBasic false rest).map fun (cs, rest) => (c :: cs, rest) := by
  rcases escape_cases c with ⟨form, plain, quote, backslash⟩ | ⟨x, form, back, u, U⟩ |
    ⟨a, b, d, e, form, back⟩
  · rw [form]
    exact readLongBasic_plain (.inl plain) backslash fun _ same => absurd same other
  · rw [form]
    exact readLongBasic_letter back u U rest
  · rw [form]
    simp only [List.cons_append, List.nil_append, readLongBasic, back]

/-- One or two quotes before something else. -/
theorem readLongBasic_quotes {n : Nat} (few : n ≤ 2) {rest : List Char}
    (other : ∀ more, rest ≠ '"' :: more) :
    readLongBasic false (List.replicate n '"' ++ rest) =
      (readLongBasic false rest).map fun (cs, rest) => (List.replicate n '"' ++ cs, rest) := by
  induction n with
  | zero => simp
  | succ n ih =>
    rw [List.replicate_succ, List.cons_append, readLongBasic_plain (.inl rfl) (by decide), ih]
    · cases readLongBasic false rest <;> rfl
    · omega
    · rintro more -
      match n, few with
      | 0, _ => exact fun same => other _ same
      | 1, _ => exact fun same => other _ (List.cons.inj same).2

theorem escape_ne_quote (c : Char) (rest more : List Char) : escape c ++ rest ≠ '"' :: more := by
  rcases escape_cases c with ⟨form, _, quote, _⟩ | ⟨x, form, _⟩ | ⟨a, b, d, e, form, _⟩
  · rw [form]
    exact fun same => quote (List.cons.inj same).1
  · rw [form]
    exact fun same => absurd (List.cons.inj same).1 (by decide)
  · rw [form]
    exact fun same => absurd (List.cons.inj same).1 (by decide)

/-- What other characters than quotes are written as. -/
theorem escapeLong_cases {c : Char} (other : c ≠ '"') (n : Nat) (cs : List Char) :
    ∃ form, escapeLong n (c :: cs) = form ++ escapeLong 0 cs ∧
      (∀ rest more, form ++ rest ≠ '"' :: more) ∧
      ∀ rest, readLongBasic false (form ++ rest) =
        (readLongBasic false rest).map fun (cs, rest) => (c :: cs, rest) := by
  by_cases feed : c = '\n'
  · subst feed
    refine ⟨['\n'], rfl, fun _ _ => by simp, fun rest => ?_⟩
    exact readLongBasic_plain (.inr rfl) (by decide) (by simp)
  · refine ⟨escape c, ?_, escape_ne_quote c, readLongBasic_escape other⟩
    rw [escapeLong]
    · exact other
    · exact feed

/-- The quotes right before have not been read yet: they may be part of the end. -/
theorem readLongBasic_escapeLong {n : Nat} (few : n ≤ 2) (cs rest : List Char) :
    readLongBasic false
        (List.replicate n '"' ++ (escapeLong n cs ++ '"' :: '"' :: '"' :: '\n' :: rest)) =
      some (List.replicate n '"' ++ cs, '\n' :: rest) := by
  induction cs generalizing n with
  | nil =>
    match n, few with
    | 0, _ => rfl
    | 1, _ => rfl
    | 2, _ => rfl
  | cons c cs ih =>
    by_cases quote : c = '"'
    · subst quote
      rw [escapeLong]
      split
      · rename_i second
        subst second
        rw [List.cons_append, List.cons_append, readLongBasic_quotes few (by simp),
          readLongBasic_letter (c := '"') rfl (by decide) (by decide)]
        have later := ih (Nat.zero_le 2)
        rw [List.replicate_zero, List.nil_append] at later
        rw [later]
        rfl
      · have more : List.replicate n '"' ++ ['"'] = List.replicate (n + 1) '"' :=
          List.replicate_succ'.symm
        rw [List.cons_append, List.append_cons, more, ih (by omega), List.append_cons _ '"' cs,
          more]
    · obtain ⟨form, written, start, read⟩ := escapeLong_cases quote n cs
      have later := ih (Nat.zero_le 2)
      rw [List.replicate_zero, List.nil_append] at later
      rw [written, List.append_assoc, readLongBasic_quotes few (start _), read, later]
      rfl

/-! ## Several lines as they are -/

theorem readLongLiteral_plain {c : Char} {rest : List Char} (plain : isPlain c = true ∨ c = '\n')
    (quote : ∀ more, c = '\'' → rest ≠ '\'' :: '\'' :: more) :
    readLongLiteral (c :: rest) =
      (readLongLiteral rest).map fun (cs, rest) => (c :: cs, rest) := by
  have cr : c ≠ '\r' := by
    rintro rfl
    simp [isPlain] at plain
  rw [readLongLiteral, if_pos (by simpa using plain)]
  · exact quote
  · simp [cr]

theorem readLongLiteral_quotes {n : Nat} (few : n ≤ 2) {rest : List Char}
    (other : ∀ more, rest ≠ '\'' :: more) :
    readLongLiteral (List.replicate n '\'' ++ rest) =
      (readLongLiteral rest).map fun (cs, rest) => (List.replicate n '\'' ++ cs, rest) := by
  induction n with
  | zero => simp
  | succ n ih =>
    rw [List.replicate_succ, List.cons_append, readLongLiteral_plain (.inl rfl), ih]
    · cases readLongLiteral rest <;> rfl
    · omega
    · rintro more -
      match n, few with
      | 0, _ => exact fun same => other _ same
      | 1, _ => exact fun same => other _ (List.cons.inj same).2

theorem thrice_replicate {q : Char} {n : Nat} {cs : List Char}
    (lone : thrice q (List.replicate n q ++ cs) = false) : n ≤ 2 := by
  match n with
  | 0 | 1 | 2 => omega
  | n + 3 =>
    simp only [List.replicate_succ, List.cons_append, thrice, beq_self_eq_true, Bool.and_self,
      Bool.true_or, Bool.true_eq_false] at lone

theorem thrice_tail {q c : Char} {cs : List Char} (lone : thrice q (c :: cs) = false) :
    thrice q cs = false := by
  match cs with
  | [] | [_] => rfl
  | a :: b :: cs =>
    rw [thrice, Bool.or_eq_false_iff] at lone
    exact lone.2

theorem thrice_behind {q : Char} {n : Nat} {cs : List Char}
    (lone : thrice q (List.replicate n q ++ cs) = false) : thrice q cs = false := by
  induction n with
  | zero => exact lone
  | succ n ih => exact ih (thrice_tail lone)

/-- As for escaped text, the quotes right before have not been read yet. -/
theorem readLongLiteral_append {n : Nat} {cs : List Char}
    (lone : thrice '\'' (List.replicate n '\'' ++ cs) = false)
    (plain : ∀ c ∈ cs, isPlain c = true ∨ c = '\n') (rest : List Char) :
    readLongLiteral
        (List.replicate n '\'' ++ (cs ++ '\'' :: '\'' :: '\'' :: '\n' :: rest)) =
      some (List.replicate n '\'' ++ cs, '\n' :: rest) := by
  have few := thrice_replicate lone
  induction cs generalizing n with
  | nil =>
    match n, few with
    | 0, _ => rfl
    | 1, _ => rfl
    | 2, _ => rfl
  | cons c cs ih =>
    obtain ⟨first, others⟩ := List.forall_mem_cons.mp plain
    by_cases quote : c = '\''
    · subst quote
      have more : List.replicate n '\'' ++ ['\''] = List.replicate (n + 1) '\'' :=
        List.replicate_succ'.symm
      rw [List.append_cons, more] at lone
      rw [List.cons_append, List.append_cons, more, ih lone others (thrice_replicate lone),
        List.append_cons _ '\'' cs, more]
    · have later := ih (n := 0) (thrice_tail (thrice_behind lone)) others (Nat.zero_le 2)
      rw [List.replicate_zero, List.nil_append] at later
      rw [List.cons_append, readLongLiteral_quotes few (by simp [quote]),
        readLongLiteral_plain first (by simp [quote]), later]
      rfl

/-! ## Choosing a form -/

theorem afterNewline?_plain {c : Char} (plain : isPlain c = true) (rest : List Char) :
    afterNewline? (c :: rest) = none := by
  rw [afterNewline?]
  · intro _ same
    rw [(List.cons.inj same).1] at plain
    exact absurd plain (by decide)
  · intro _ same
    rw [(List.cons.inj same).1] at plain
    exact absurd plain (by decide)

theorem afterNewline?_escape (c : Char) (rest : List Char) :
    afterNewline? (escape c ++ rest) = none := by
  rcases escape_cases c with ⟨form, plain, _⟩ | ⟨x, form, _⟩ | ⟨a, b, d, e, form, _⟩
  · rw [form]
    exact afterNewline?_plain plain rest
  · rw [form]
    exact afterNewline?_plain rfl _
  · rw [form]
    exact afterNewline?_plain rfl _

theorem afterNewline?_escapeLong {cs : List Char} (feed : '\n' ∉ cs) (rest : List Char) :
    afterNewline? (escapeLong 0 cs ++ '"' :: rest) = none := by
  cases cs with
  | nil => rfl
  | cons c cs =>
    rw [List.mem_cons, not_or] at feed
    by_cases quote : c = '"'
    · subst quote
      rfl
    · rw [escapeLong, List.append_assoc]
      · exact afterNewline?_escape c _
      · exact quote
      · exact Ne.symm feed.1

theorem afterNewline?_literal {cs : List Char} (plain : ∀ c ∈ cs, isPlain c = true ∨ c = '\n')
    (feed : '\n' ∉ cs) (rest : List Char) : afterNewline? (cs ++ '\'' :: rest) = none := by
  cases cs with
  | nil => rfl
  | cons c cs =>
    rcases plain c List.mem_cons_self with visible | rfl
    · exact afterNewline?_plain visible _
    · exact absurd List.mem_cons_self feed

theorem opening_lead {cs body : List Char} (start : '\n' ∉ cs → afterNewline? body = none) :
    opening (lead cs ++ body) = body := by
  unfold lead
  split
  · rfl
  · rename_i feed
    rw [List.contains_iff_mem] at feed
    rw [List.nil_append, opening, start feed]
    rfl

/-- What is written as it is has no control characters. -/
theorem no_control {cs : List Char} (free : ¬ cs.any isControl = true) :
    ∀ c ∈ cs, isPlain c = true ∨ c = '\n' := by
  intro c here
  by_cases feed : c = '\n'
  · exact .inr feed
  · refine .inl (isPlain_of_not_isControl (Bool.eq_false_iff.mpr fun control => ?_) feed)
    exact free (List.any_eq_true.mpr ⟨c, here, control⟩)

theorem of_quoting_literal {cs : List Char} (form : quoting cs = .literal) :
    (∀ c ∈ cs, isPlain c = true) ∧ '\'' ∉ cs := by
  have facts : ¬ cs.any isControl = true ∧ cs.contains '\'' = false ∧
      cs.contains '\n' = false := by grind [quoting]
  obtain ⟨free, quote, feed⟩ := facts
  rw [List.contains_eq_mem, decide_eq_false_iff_not] at quote feed
  refine ⟨fun c here => ?_, quote⟩
  rcases no_control free c here with plain | rfl
  · exact plain
  · exact absurd here feed

theorem of_quoting_longLiteral {cs : List Char} (form : quoting cs = .longLiteral) :
    (∀ c ∈ cs, isPlain c = true ∨ c = '\n') ∧ thrice '\'' cs = false := by
  have facts : ¬ cs.any isControl = true ∧ thrice '\'' cs = false := by grind [quoting]
  exact ⟨no_control facts.1, facts.2⟩

/-- A text on one line does not look like the start of a longer one. -/
theorem basic_ne_long (cs rest more : List Char) :
    cs.flatMap escape ++ '"' :: '\n' :: rest ≠ '"' :: '"' :: more := by
  cases cs with
  | nil => simp
  | cons c cs =>
    rw [List.flatMap_cons, List.append_assoc]
    exact escape_ne_quote c _ _

theorem literal_ne_long {cs : List Char} (quote : '\'' ∉ cs) (rest more : List Char) :
    cs ++ '\'' :: '\n' :: rest ≠ '\'' :: '\'' :: more := by
  cases cs with
  | nil => simp
  | cons c cs =>
    rw [List.mem_cons, not_or] at quote
    exact fun same => quote.1 (List.cons.inj same).1.symm

/-- Whatever form a text is given, it is read as far as it was written. -/
theorem readValue_writeText (fuel room : Nat) (cs rest : List Char) :
    readValue (fuel + 1) room (writeText cs ++ '\n' :: rest) =
      some (scalar (.text (String.ofList cs)), '\n' :: rest) := by
  unfold writeText
  split
  · rw [List.append_assoc, List.cons_append, readValue, List.singleton_append, readBasic_flatMap]
    · rfl
    · exact basic_ne_long cs rest
  · rename_i form
    obtain ⟨plain, quote⟩ := of_quoting_literal form
    rw [List.append_assoc, List.cons_append, readValue, List.singleton_append,
      readLiteral_append plain quote]
    · rfl
    · exact literal_ne_long quote rest
  · simp only [List.append_assoc, List.cons_append, List.nil_append, readValue]
    have read := readLongBasic_escapeLong (Nat.zero_le 2) cs rest
    rw [List.replicate_zero, List.nil_append] at read
    rw [opening_lead fun feed => afterNewline?_escapeLong feed _, read]
    rfl
  · rename_i form
    obtain ⟨plain, lone⟩ := of_quoting_longLiteral form
    simp only [List.append_assoc, List.cons_append, List.nil_append, readValue]
    have read := readLongLiteral_append (n := 0) lone plain rest
    rw [List.replicate_zero, List.nil_append] at read
    rw [opening_lead fun feed => afterNewline?_literal plain feed _, read]
    rfl

end ClusterClient.Toml
