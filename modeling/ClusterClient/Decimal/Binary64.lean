/-!
Finite numbers of the 64-bit binary format, as exact ratios, and the decimal
with the fewest digits that reads back as a given one.
-/
namespace ClusterClient

/-- Stands for `significand * 2 ^ (power - 1074)`, with the significand below
`2 ^ 53`, and at least `2 ^ 52` unless the power is 0. -/
structure Binary64 where
  negative : Bool
  significand : Nat
  power : Nat
deriving DecidableEq, Repr, Inhabited

namespace Binary64

/-- A quotient rounded to a whole number, half to even. -/
def roundQuotient (num den : Nat) : Nat :=
  let q := num / den
  let r := 2 * (num % den)
  if r < den then q else if den < r then q + 1 else q + q % 2

/-- The nearest number to a ratio, or none if it is out of range. -/
def ofRatio? (negative : Bool) (num den : Nat) : Option Binary64 :=
  let scaled := num <<< 1074
  let excess := Nat.log2 (scaled / den) - 52
  let s := roundQuotient scaled (den <<< excess)
  let (s, power) := if s = 1 <<< 53 then (1 <<< 52, excess + 1) else (s, excess)
  if 2045 < power then none else some ⟨negative, s, power⟩

/-- Numerator and denominator of the size of a number. -/
def ratio (x : Binary64) : Nat × Nat := (x.significand <<< x.power, 1 <<< 1074)

def isZero (x : Binary64) : Bool := x.significand == 0

/-- Zeros are equal whatever their signs. -/
instance : BEq Binary64 :=
  ⟨fun x y => (x.isZero && y.isZero) || decide (x = y)⟩

def times? (x : Binary64) (n : Binary64) : Option Binary64 :=
  ofRatio? x.negative (x.ratio.1 * n.ratio.1) (x.ratio.2 * n.ratio.2)

def dividedBy? (x : Binary64) (n : Binary64) : Option Binary64 :=
  ofRatio? x.negative (x.ratio.1 * n.ratio.2) (x.ratio.2 * n.ratio.1)

def ofNat? (n : Nat) : Option Binary64 := ofRatio? false n 1

/-- The sixty-four bits: sign, exponent and fraction. -/
def bits (x : Binary64) : Nat :=
  (if x.negative then 1 <<< 63 else 0) +
    (if x.significand < 1 <<< 52 then x.significand
     else (x.power + 1) <<< 52 + (x.significand - 1 <<< 52))

/-- Twice the half-way points to the neighbours, in units of `2 ^ -1076`, and the
number itself in the same unit. -/
def neighbourhood (x : Binary64) : Nat × Nat × Nat :=
  let unit := 1 <<< x.power
  let below := if x.significand = 1 <<< 52 ∧ 0 < x.power then unit else 2 * unit
  let v := 4 * x.significand * unit
  (v - below, v, v + 2 * unit)

/-- The multiple of `10 ^ place` nearest to the number among those that read back
as it, with `place` the given one less 400. -/
def onGrid? (x : Binary64) (place : Nat) : Option Nat :=
  let (low, v, high) := x.neighbourhood
  let one := Nat.pow 10 place <<< 1076
  let v := v * Nat.pow 10 400
  let low := low * Nat.pow 10 400
  let high := high * Nat.pow 10 400
  let fits (d : Nat) : Bool :=
    let p := d * one
    0 < d && ((low < p && p < high) || (x.significand % 2 = 0 && (p = low || p = high)))
  let d := v / one
  match fits d, fits (d + 1) with
  | true, false => some d
  | false, true => some (d + 1)
  | false, false => none
  | true, true =>
    let r := 2 * (v % one)
    some (if r < one then d else if one < r then d + 1 else d + d % 2)

/-- The first grid, from coarse to fine, that has a point to offer. -/
def searchGrid (x : Binary64) : Nat → Nat × Nat
  | 0 => (0, 0)
  | place + 1 =>
    match x.onGrid? place with
    | some d => (d, place)
    | none => searchGrid x place

def dropZeros : Nat → Nat → Nat → Nat × Nat
  | 0, d, place => (d, place)
  | fuel + 1, d, place =>
    if d % 10 = 0 ∧ d ≠ 0 then dropZeros fuel (d / 10) (place + 1) else (d, place)

/-- Digits and exponent of ten of the shortest decimal. -/
def shortest (x : Binary64) : Nat × Int :=
  if x.isZero then (0, 0)
  else
    let (d, place) := x.searchGrid 710
    let (d, place) := dropZeros 20 d place
    (d, (place : Int) - 400)

end Binary64

end ClusterClient
