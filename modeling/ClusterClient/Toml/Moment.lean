import ClusterClient.Text.Numeral
/-!
Dates and times of day, alone or together, and then perhaps with an offset.
-/
namespace ClusterClient.Toml.Moment

open Text

def twoDigits? : List Char → Option (Nat × List Char)
  | a :: b :: rest => do return ((← digit? a) * 10 + (← digit? b), rest)
  | _ => none

def isLeap (year : Nat) : Bool := year % 4 == 0 && (year % 100 != 0 || year % 400 == 0)

def daysIn (year month : Nat) : Nat :=
  if month = 2 then if isLeap year then 29 else 28
  else if month = 4 ∨ month = 6 ∨ month = 9 ∨ month = 11 then 30
  else 31

def afterDate? (cs : List Char) : Option (List Char) := do
  let (century, cs) ← twoDigits? cs
  let (year, cs) ← twoDigits? cs
  let '-' :: cs := cs | none
  let (month, cs) ← twoDigits? cs
  let '-' :: cs := cs | none
  let (day, cs) ← twoDigits? cs
  if 1 ≤ month ∧ month ≤ 12 ∧ 1 ≤ day ∧ day ≤ daysIn (century * 100 + year) month then some cs
  else none

def isDigit (c : Char) : Bool := (digit? c).isSome

def afterFraction? : List Char → Option (List Char)
  | '.' :: c :: rest => if isDigit c then some (rest.dropWhile isDigit) else none
  | '.' :: [] => none
  | cs => some cs

/-- A minute may have a leap second. -/
def afterTime? (cs : List Char) : Option (List Char) := do
  let (hour, cs) ← twoDigits? cs
  let ':' :: cs := cs | none
  let (minute, cs) ← twoDigits? cs
  let ':' :: cs := cs | none
  let (second, cs) ← twoDigits? cs
  if hour ≤ 23 ∧ minute ≤ 59 ∧ second ≤ 60 then afterFraction? cs else none

def isOffset : List Char → Bool
  | [] | ['Z'] | ['z'] => true
  | sign :: cs =>
    match twoDigits? cs with
    | some (hour, ':' :: cs) =>
      match twoDigits? cs with
      | some (minute, []) => (sign == '+' || sign == '-') && hour ≤ 23 && minute ≤ 59
      | _ => false
    | _ => false

def isDate (cs : List Char) : Bool := afterDate? cs == some []

def isTime (cs : List Char) : Bool := afterTime? cs == some []

def isMoment (cs : List Char) : Bool :=
  match afterDate? cs with
  | some [] => true
  | some (c :: rest) =>
    (c == 'T' || c == 't' || c == ' ') && ((afterTime? rest).map isOffset).getD false
  | none => isTime cs

end ClusterClient.Toml.Moment
