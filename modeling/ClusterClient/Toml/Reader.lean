import ClusterClient.Decimal.Binary64
import ClusterClient.Toml.Document
import ClusterClient.Toml.Moment
/-!
Reading TOML text. Lines end with a line feed, before which a carriage return
may stand; a text of more than one line keeps its line ends as they are. No key has
more than `nestingLimit` names, and no value stands within more than so many brackets
of its own statement.
-/
namespace ClusterClient.Toml

open Text

def nestingLimit : Nat := 80

def isPlain (c : Char) : Bool := c == '\t' || (0x20 ≤ c.toNat && c.toNat != 0x7f)

def skipBlank : List Char → List Char
  | ' ' :: rest | '\t' :: rest => skipBlank rest
  | cs => cs

def afterNewline? : List Char → Option (List Char)
  | '\n' :: rest | '\r' :: '\n' :: rest => some rest
  | _ => none

/-- Past blanks, line ends and comments; the flag tells that a comment is open. -/
def skipVoid : Bool → List Char → List Char
  | _, '\n' :: rest | _, '\r' :: '\n' :: rest => skipVoid false rest
  | true, c :: rest => if isPlain c then skipVoid true rest else c :: rest
  | false, ' ' :: rest | false, '\t' :: rest => skipVoid false rest
  | false, '#' :: rest => skipVoid true rest
  | _, cs => cs

/-- What follows a line on which there is no more than a comment. -/
def afterLine? (cs : List Char) : Option (List Char) :=
  let cs := match skipBlank cs with
    | '#' :: rest => rest.dropWhile isPlain
    | cs => cs
  if cs.isEmpty then some [] else afterNewline? cs

/-! ## Texts -/

def simpleEscape? : Char → Option Char
  | '"' => some '"'
  | '\\' => some '\\'
  | 'b' => some '\x08'
  | 't' => some '\t'
  | 'n' => some '\n'
  | 'f' => some '\x0c'
  | 'r' => some '\r'
  | _ => none

/-- The character whose code point is given in hexadecimal digits. -/
def codePoint? (digits : List Char) : Option Char := do
  let n ← digits.foldlM (fun n c => (hexDigit? c).map (n * 16 + ·)) 0
  if n.isValidChar then some (Char.ofNat n) else none

def readBasic : List Char → Option (List Char × List Char)
  | [] => none
  | '"' :: rest => some ([], rest)
  | '\\' :: 'u' :: a :: b :: c :: d :: rest =>
    match codePoint? [a, b, c, d] with
    | none => none
    | some x => (readBasic rest).map fun (cs, rest) => (x :: cs, rest)
  | '\\' :: 'U' :: a :: b :: c :: d :: e :: f :: g :: h :: rest =>
    match codePoint? [a, b, c, d, e, f, g, h] with
    | none => none
    | some x => (readBasic rest).map fun (cs, rest) => (x :: cs, rest)
  | '\\' :: c :: rest =>
    match simpleEscape? c with
    | none => none
    | some x => (readBasic rest).map fun (cs, rest) => (x :: cs, rest)
  | c :: rest =>
    if isPlain c then (readBasic rest).map fun (cs, rest) => (c :: cs, rest) else none

def readLiteral : List Char → Option (List Char × List Char)
  | [] => none
  | '\'' :: rest => some ([], rest)
  | c :: rest =>
    if isPlain c then (readLiteral rest).map fun (cs, rest) => (c :: cs, rest) else none

/-- Behind three quotes: up to two more of them still belong to the text. -/
def closing (quote : Char) (cs : List Char) : List Char × List Char :=
  let own := (cs.take 2).takeWhile (· == quote)
  (own, cs.drop own.length)

/-- A text of several lines. The flag tells that a backslash at the end of a line
is passing over the blanks and line ends behind it. -/
def readLongBasic : Bool → List Char → Option (List Char × List Char)
  | _, [] => none
  | true, ' ' :: rest | true, '\t' :: rest | true, '\n' :: rest | true, '\r' :: '\n' :: rest =>
    readLongBasic true rest
  | _, '"' :: '"' :: '"' :: rest => some (closing '"' rest)
  | _, '\\' :: 'u' :: a :: b :: c :: d :: rest =>
    match codePoint? [a, b, c, d] with
    | none => none
    | some x => (readLongBasic false rest).map fun (cs, rest) => (x :: cs, rest)
  | _, '\\' :: 'U' :: a :: b :: c :: d :: e :: f :: g :: h :: rest =>
    match codePoint? [a, b, c, d, e, f, g, h] with
    | none => none
    | some x => (readLongBasic false rest).map fun (cs, rest) => (x :: cs, rest)
  | _, '\\' :: c :: rest =>
    match simpleEscape? c with
    | some x => (readLongBasic false rest).map fun (cs, rest) => (x :: cs, rest)
    | none =>
      if (afterNewline? (skipBlank (c :: rest))).isSome then readLongBasic true (c :: rest)
      else none
  | _, '\r' :: '\n' :: rest =>
    (readLongBasic false rest).map fun (cs, rest) => ('\r' :: '\n' :: cs, rest)
  | _, c :: rest =>
    if isPlain c || c == '\n' then
      (readLongBasic false rest).map fun (cs, rest) => (c :: cs, rest)
    else none

def readLongLiteral : List Char → Option (List Char × List Char)
  | [] => none
  | '\'' :: '\'' :: '\'' :: rest => some (closing '\'' rest)
  | '\r' :: '\n' :: rest =>
    (readLongLiteral rest).map fun (cs, rest) => ('\r' :: '\n' :: cs, rest)
  | c :: rest =>
    if isPlain c || c == '\n' then (readLongLiteral rest).map fun (cs, rest) => (c :: cs, rest)
    else none

/-- A line end right behind the opening quotes does not count. -/
def opening (cs : List Char) : List Char := (afterNewline? cs).getD cs

/-! ## Keys -/

def isBare (c : Char) : Bool := c.isAlphanum || c == '_' || c == '-'

def readName (cs : List Char) : Option (List Char × List Char) :=
  match cs with
  | '"' :: rest => readBasic rest
  | '\'' :: rest => readLiteral rest
  | cs =>
    let name := cs.takeWhile isBare
    if name.isEmpty then none else some (name, cs.dropWhile isBare)

/-- A key of at most so many names. -/
def readKey : Nat → List Char → Option (Key × List Char)
  | 0, _ => none
  | room + 1, cs =>
    match readName (skipBlank cs) with
    | none => none
    | some (name, rest) =>
      match skipBlank rest with
      | '.' :: rest => (readKey room rest).map fun (key, rest) =>
        (⟨String.ofList name :: key.above, key.name⟩, rest)
      | rest => some (⟨[], String.ofList name⟩, rest)

/-! ## Numbers -/

def digitBelow? (base : Nat) (c : Char) : Option Nat := (hexDigit? c).filter (· < base)

/-- The rest of a number after a digit; single underscores may stand between the
digits. -/
def moreDigits? (base : Nat) : Nat → List Char → Option Nat
  | n, [] => some n
  | n, '_' :: c :: rest => (digitBelow? base c).bind fun d => moreDigits? base (n * base + d) rest
  | n, c :: rest => (digitBelow? base c).bind fun d => moreDigits? base (n * base + d) rest

def digits? (base : Nat) : List Char → Option Nat
  | [] => none
  | c :: rest => (digitBelow? base c).bind fun d => moreDigits? base d rest

/-- Without a zero in front. -/
def natural? : List Char → Option Nat
  | '0' :: _ :: _ => none
  | cs => digits? 10 cs

def integer? : List Char → Option Int
  | '0' :: 'x' :: rest => (digits? 16 rest).map Int.ofNat
  | '0' :: 'o' :: rest => (digits? 8 rest).map Int.ofNat
  | '0' :: 'b' :: rest => (digits? 2 rest).map Int.ofNat
  | '-' :: rest => (natural? rest).map fun n => -(n : Int)
  | '+' :: rest => (natural? rest).map Int.ofNat
  | cs => (natural? cs).map Int.ofNat

def unsigned : List Char → List Char
  | '+' :: rest | '-' :: rest => rest
  | cs => cs

/-- Whether `digits * 10 ^ exponent` rounds to a finite number. -/
def isBounded (digits : Nat) (exponent : Int) : Bool :=
  let size := (decimal digits).length + exponent
  if digits = 0 ∨ size < 309 then true
  else if 309 < size then false
  else if 0 ≤ exponent then (Binary64.ofNat? (digits * Nat.pow 10 exponent.toNat)).isSome
  else (Binary64.ofRatio? false digits (Nat.pow 10 exponent.natAbs)).isSome

/-- The digits of a mantissa as one number, and how many of them are behind the
point. -/
def mantissa? (cs : List Char) : Option (Nat × Nat) :=
  let whole := cs.takeWhile (· != '.')
  match natural? whole, cs.drop whole.length with
  | none, _ => none
  | some n, [] => some (n, 0)
  | some n, _ :: part =>
    let own := part.filter (· != '_')
    if (digits? 10 part).isNone then none else (moreDigits? 10 n own).map (·, own.length)

def exponent? : List Char → Option Int
  | '-' :: cs => (digits? 10 cs).map fun n => -(n : Int)
  | '+' :: cs => (digits? 10 cs).map Int.ofNat
  | cs => (digits? 10 cs).map Int.ofNat

def isMark (c : Char) : Bool := c == 'e' || c == 'E'

/-- A number with a part behind its point, an exponent or both. -/
def fraction? (cs : List Char) : Option Toml :=
  let cs := unsigned cs
  if cs = ['i', 'n', 'f'] ∨ cs = ['n', 'a', 'n'] then some fraction
  else
    match mantissa? (cs.takeWhile fun c => !isMark c), cs.dropWhile fun c => !isMark c with
    | none, _ | some (_, 0), [] => none
    | some (digits, places), [] => some (if isBounded digits (-places) then fraction else unusable)
    | some (digits, places), _ :: power => (exponent? power).map fun e =>
      if isBounded digits (e - places) then fraction else unusable

/-! ## Values -/

def isWordChar (c : Char) : Bool :=
  c.isAlphanum || c == '+' || c == '-' || c == '_' || c == '.' || c == ':'

/-- A word; a date and a time may have a space between them. -/
def word (cs : List Char) : List Char × List Char :=
  let first := cs.takeWhile isWordChar
  match cs.dropWhile isWordChar with
  | ' ' :: c :: rest =>
    if Moment.isDate first && Moment.isDigit c then
      (first ++ ' ' :: (c :: rest).takeWhile isWordChar, (c :: rest).dropWhile isWordChar)
    else (first, ' ' :: c :: rest)
  | rest => (first, rest)

def ofWord? (cs : List Char) : Option Toml :=
  if cs = ['t', 'r', 'u', 'e'] then some (scalar (.bool true))
  else if cs = ['f', 'a', 'l', 's', 'e'] then some (scalar (.bool false))
  else match integer? cs with
    | some n => some (scalar (.int n))
    | none => if Moment.isMoment cs then some moment else fraction? cs

def ofText (read : Option (List Char × List Char)) : Option (Toml × List Char) :=
  read.map fun (cs, rest) => (scalar (.text (String.ofList cs)), rest)

mutual

/-- A value, within which there is room for so many brackets. -/
def readValue : Nat → Nat → List Char → Option (Toml × List Char)
  | 0, _, _ => none
  | fuel + 1, room, cs =>
    match room, cs with
    | _, '"' :: '"' :: '"' :: rest => ofText (readLongBasic false (opening rest))
    | _, '"' :: rest => ofText (readBasic rest)
    | _, '\'' :: '\'' :: '\'' :: rest => ofText (readLongLiteral (opening rest))
    | _, '\'' :: rest => ofText (readLiteral rest)
    | 0, '[' :: _ | 0, '\x7b' :: _ => none
    | room + 1, '[' :: rest =>
      (readItems fuel room rest).map fun (items, rest) => (list items, rest)
    | room + 1, '\x7b' :: rest =>
      match skipBlank rest with
      | '\x7d' :: rest => some (table [], rest)
      | rest =>
        match readEntries fuel room rest with
        | none => none
        | some (entries, rest) => (inline? entries).map (·, rest)
    | _, cs => (ofWord? (word cs).1).map (·, (word cs).2)

/-- The items of a list up to its end; behind the last one a comma may stand. -/
def readItems : Nat → Nat → List Char → Option (List Toml × List Char)
  | 0, _, _ => none
  | fuel + 1, room, cs =>
    match skipVoid false cs with
    | ']' :: rest => some ([], rest)
    | cs =>
      match readValue fuel room cs with
      | none => none
      | some (v, rest) =>
        match skipVoid false rest with
        | ']' :: rest => some ([v], rest)
        | ',' :: rest => (readItems fuel room rest).map fun (vs, rest) => (v :: vs, rest)
        | _ => none

/-- The entries of an inline table up to its end, at least one. -/
def readEntries : Nat → Nat → List Char → Option (List (Key × Toml) × List Char)
  | 0, _, _ => none
  | fuel + 1, room, cs =>
    match readEntry fuel room cs with
    | none => none
    | some (e, rest) =>
      match skipBlank rest with
      | '\x7d' :: rest => some ([e], rest)
      | ',' :: rest => (readEntries fuel room rest).map fun (es, rest) => (e :: es, rest)
      | _ => none

def readEntry : Nat → Nat → List Char → Option ((Key × Toml) × List Char)
  | 0, _, _ => none
  | fuel + 1, room, cs =>
    match readKey nestingLimit cs with
    | some (key, '=' :: rest) =>
      (readValue fuel room (skipBlank rest)).map fun (v, rest) => ((key, v), rest)
    | _ => none

end

def readStatement (fuel : Nat) (cs : List Char) : Option (Statement × List Char) :=
  match cs with
  | '[' :: '[' :: rest =>
    match readKey nestingLimit rest with
    | some (key, ']' :: ']' :: rest) => some (.element key, rest)
    | _ => none
  | '[' :: rest =>
    match readKey nestingLimit rest with
    | some (key, ']' :: rest) => some (.table key, rest)
    | _ => none
  | cs => (readEntry fuel nestingLimit cs).map fun ((key, v), rest) => (.entry key v, rest)

def readStatements : Nat → List Char → Option (List Statement)
  | 0, _ => none
  | fuel + 1, cs =>
    match skipVoid false cs with
    | [] => some []
    | cs =>
      match readStatement fuel cs with
      | none => none
      | some (s, rest) =>
        match afterLine? rest with
        | none => none
        | some rest => (readStatements fuel rest).map (s :: ·)

/-- A byte order mark may stand in front of the document. -/
def parse? (s : String) : Option Toml :=
  let cs := match s.toList with
    | '\ufeff' :: rest => rest
    | cs => cs
  (readStatements (3 * cs.length + 3) cs).bind ofStatements?

end ClusterClient.Toml
