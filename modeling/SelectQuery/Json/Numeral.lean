import SelectQuery.Json.Basic
import SelectQuery.Text.Reader

/-!
# Json/Numeral — numbers as they are written

A numeral is a sign, the digits before and behind the point, and an exponent. Its number is found in
two steps. As many leading digits as fit sixty-four bits make the significand, the digits left out
before the point raise the exponent, and the significand is then multiplied or divided by a power of
ten, with one rounding for each operation. The steps are part of the meaning: a numeral of many
digits need not come out as the nearest number.
-/

namespace SelectQuery.Json

open Text (Reader)
open Number (Format Finite)

/-- A number as it is written. -/
structure Numeral where
  negative : Bool
  /-- The digits before the point, of which there is at least one. -/
  whole : List Nat
  /-- The digits behind the point, if there is a point. -/
  fraction : Option (List Nat)
  /-- The power of ten, if one is written. -/
  exponent : Option Int

namespace Numeral

/-! ## Reading the form -/

/-- The digits at the front, as numbers. -/
def digits : Reader (List Nat) := do
  let cs ← Reader.span Char.isDigit
  return cs.map fun c => c.toNat - 48

/-- One digit or more. -/
def digits1 : Reader (List Nat) := do
  let ds ← digits
  if ds.isEmpty then Reader.refuse else return ds

/-- The number that a digit string stands for in base ten. -/
def ofDigits (ds : List Nat) : Nat := ds.foldl (fun n d => 10 * n + d) 0

/-- A point and the digits behind it, if a point follows. -/
def readFraction : Reader (Option (List Nat)) := do
  if (← Reader.peek?) = some '.' then
    Reader.char '.'
    some <$> digits1
  else return none

/-- A power of ten with an optional sign, if the letter for it follows. -/
def readExponent : Reader (Option Int) := do
  let next ← Reader.peek?
  if next = some 'e' ∨ next = some 'E' then
    let _ ← Reader.next
    let sign ← Reader.peek?
    let size ← match sign with
      | some '+' => do Reader.char '+'; digits1
      | some '-' => do Reader.char '-'; digits1
      | _ => digits1
    return some (if sign = some '-' then -(ofDigits size : Int) else ofDigits size)
  else return none

/-- A numeral; a zero in front of other digits is refused. -/
def read : Reader Numeral := do
  let sign ← Reader.peek?
  if sign = some '-' then Reader.char '-'
  let whole ← digits1
  if whole.head? = some 0 ∧ 1 < whole.length then Reader.refuse
  let fraction ← readFraction
  let exponent ← readExponent
  return ⟨sign = some '-', whole, fraction, exponent⟩

/-! ## Its number -/

/-- Appends digits to a number while it stays below `2^64`; the number, and how many digits were
left out. -/
def absorb (n : Nat) : List Nat → Nat × Nat
  | [] => (n, 0)
  | d :: ds => if 10 * n + d < UInt64.size then absorb (10 * n + d) ds else (n, ds.length + 1)

/-- The significand and the power of ten that a numeral stands for. -/
def scaled (x : Numeral) : Nat × Int :=
  let (front, dropped) := absorb 0 x.whole
  let behind := x.fraction.getD []
  let (significand, ignored) := absorb front behind
  (significand, dropped - ((behind.length : Int) - ignored) + x.exponent.getD 0)

/-- The nearest number to a whole one. -/
def nearest? (n : Nat) : Option (Finite .double) := Finite.ofRatio? .double n 1

/-- `x · 10^e`, where the power is that of the format; `none` where the result is infinite. -/
def times (x : Finite .double) (e : Nat) : Option (Finite .double) := do
  let (num, den) := x.magnitude.product (← nearest? (Nat.pow 10 e)).magnitude
  Finite.ofRatio? .double num den

/-- `x / 10^e`, where the power is that of the format. -/
def dividedBy (x : Finite .double) (e : Nat) : Option (Finite .double) := do
  let (num, den) := x.magnitude.ratio (← nearest? (Nat.pow 10 e)).magnitude
  Finite.ofRatio? .double num den

/-- Divides by `10^e`, at most `10^308` at a time. Zero stays zero whatever is left. -/
def descend (x : Finite .double) (e : Nat) : Option (Finite .double) :=
  if h : e ≤ 308 then dividedBy x e
  else if x.isZero then some x
  else do descend (← dividedBy x 308) (e - 308)
termination_by e

/-- `x · 10^e` in the steps above. Beyond `10^308` only zero is in reach. -/
def scale (x : Finite .double) (e : Int) : Option (Finite .double) :=
  if 0 ≤ e then
    if e ≤ 308 then times x e.toNat else if x.isZero then some x else none
  else descend x (-e).toNat

/-- The numeral is an integer by its form and has kept all its digits. -/
def isWhole (x : Numeral) : Bool :=
  x.fraction.isNone && x.exponent.isNone && (absorb 0 x.whole).2 == 0

/-- A positive number that fits is below zero with its sign turned. -/
theorem ofInt_neg_lt_zero {n : Nat} (hpos : 0 < n) (hfits : n ≤ UInt64.size / 2) :
    Int64.ofInt (-n) < 0 := by
  have hsize : UInt64.size / 2 = 2 ^ 63 := by decide
  rw [Int64.lt_iff_toInt_lt, Int64.toInt_ofInt_of_le (by omega) (by omega), Int64.toInt_zero]
  omega

/-- The number of a numeral; `none` where it is out of range. A negative zero is no integer. -/
def toNumber? (x : Numeral) : Option JsonNumber :=
  let (significand, exponent) := x.scaled
  if x.isWhole ∧ ¬ x.negative then some (.natural (UInt64.ofNat significand))
  else if h : x.isWhole ∧ 0 < significand ∧ significand ≤ UInt64.size / 2 then
    some (.negative (Int64.ofInt (-significand)) (ofInt_neg_lt_zero h.2.1 h.2.2))
  else do
    let size ← scale (← nearest? significand) exponent
    return .real (size.withSign x.negative)

end Numeral

end SelectQuery.Json
