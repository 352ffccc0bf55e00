/-!
# Number/Binary — binary floating-point numbers as bit patterns

A number of a binary format is its bit pattern: a sign bit, an exponent field and a fraction field.
Some patterns stand for an infinity or for no number at all; `Finite` holds the others. `magnitude`
reads a finite pattern as `m · 2^q` in whole numbers, and `ofRatio?` goes back: it rounds a quotient
of whole numbers to the nearest pattern, a tie to the even one, and reports overflow. Both
directions are exact integer arithmetic, so what is written and read here never depends on the
arithmetic of the machine.
-/

namespace SelectQuery.Number

/-- The field widths of a binary format. -/
structure Format where
  exponentBits : Nat
  fractionBits : Nat
  exponentBits_pos : 0 < exponentBits := by decide

namespace Format

/-- Thirty-two bits, eight of them exponent. -/
def single : Format where
  exponentBits := 8
  fractionBits := 23

/-- Sixty-four bits, eleven of them exponent. -/
def double : Format where
  exponentBits := 11
  fractionBits := 52

/-- The bits of a pattern without its sign. -/
abbrev unsignedWidth (F : Format) : Nat := F.exponentBits + F.fractionBits

/-- The bits of a pattern. -/
abbrev width (F : Format) : Nat := F.unsignedWidth + 1

/-- The exponent of two that the last fraction bit of the least numbers stands for. -/
def leastPlace (F : Format) : Int := 2 - (1 <<< (F.exponentBits - 1) : Nat) - F.fractionBits

/-- The unsigned pattern of infinity; every greater one is no number. -/
def infinity (F : Format) : Nat := (1 <<< F.exponentBits - 1) <<< F.fractionBits

theorem infinity_pos (F : Format) : 0 < F.infinity := by
  rw [infinity, Nat.shiftLeft_eq, Nat.shiftLeft_eq, Nat.one_mul]
  have hfield : 1 < 2 ^ F.exponentBits := Nat.one_lt_two_pow (Nat.ne_of_gt F.exponentBits_pos)
  exact Nat.mul_pos (Nat.sub_pos_of_lt hfield) (Nat.two_pow_pos _)

/-- Infinity fits beside the sign. -/
theorem infinity_lt (F : Format) : F.infinity < 1 <<< F.unsignedWidth := by
  rw [infinity, Nat.shiftLeft_eq, Nat.shiftLeft_eq, Nat.shiftLeft_eq, Nat.one_mul, Nat.one_mul,
    Nat.pow_add]
  exact Nat.mul_lt_mul_of_pos_right (Nat.sub_lt (Nat.two_pow_pos _) Nat.one_pos)
    (Nat.two_pow_pos _)

end Format

/-- A finite non-negative number `m · 2^q`. -/
structure Magnitude where
  m : Nat
  q : Int
  /-- The gap to the number below is half the gap to the number above. -/
  narrowBelow : Bool
  deriving DecidableEq, Repr

namespace Magnitude

/-- `x / y` as a quotient of whole numbers. -/
def ratio (x y : Magnitude) : Nat × Nat :=
  (x.m <<< (x.q - y.q).toNat, y.m <<< (y.q - x.q).toNat)

/-- `x · y` as a quotient of whole numbers. -/
def product (x y : Magnitude) : Nat × Nat :=
  ((x.m * y.m) <<< (x.q + y.q).toNat, 1 <<< (-(x.q + y.q)).toNat)

end Magnitude

/-- A bit pattern of the format `F`. -/
@[ext]
structure Binary (F : Format) where
  bits : BitVec F.width
  deriving DecidableEq, Repr

/-- A number of thirty-two bits. -/
abbrev Single := Binary Format.single

/-- A number of sixty-four bits. -/
abbrev Double := Binary Format.double

namespace Binary

variable {F : Format}

/-- The sign bit. -/
def negative (x : Binary F) : Bool := x.bits.msb

/-- The pattern without its sign bit, as a number. -/
def unsigned (x : Binary F) : Nat := x.bits.toNat % (1 <<< F.unsignedWidth)

/-- The exponent field. -/
def exponentField (x : Binary F) : Nat := x.unsigned >>> F.fractionBits

/-- The fraction field. -/
def fractionField (x : Binary F) : Nat := x.unsigned % (1 <<< F.fractionBits)

/-- The pattern stands for no number at all. -/
def isNaN (x : Binary F) : Bool := F.infinity < x.unsigned

/-- The pattern stands for an infinity. -/
def isInfinite (x : Binary F) : Bool := x.unsigned == F.infinity

/-- Zero of either sign. -/
def isZero (x : Binary F) : Bool := x.unsigned == 0

/-- The size of a finite number. A zero exponent field has no leading one and the place of one. -/
def magnitude (x : Binary F) : Magnitude :=
  if x.exponentField = 0 then ⟨x.fractionField, F.leastPlace, false⟩
  else ⟨1 <<< F.fractionBits + x.fractionField, F.leastPlace + x.exponentField - 1,
    x.fractionField = 0 && 1 < x.exponentField⟩

/-- **Equality of numbers**, not of patterns: what is no number equals nothing, and the two zeros
are equal. -/
instance : BEq (Binary F) where
  beq x y := !x.isNaN && !y.isNaN && (x.bits == y.bits || (x.isZero && y.isZero))

/-- The pattern with the given sign and unsigned part. -/
def ofParts (negative : Bool) (unsigned : Nat) : Binary F :=
  ⟨BitVec.ofNat F.width (if negative then 1 <<< F.unsignedWidth + unsigned else unsigned)⟩

/-- What fits beside the sign is kept. -/
theorem unsigned_ofParts (negative : Bool) {n : Nat} (hn : n < 1 <<< F.unsignedWidth) :
    (ofParts negative n : Binary F).unsigned = n := by
  rw [Nat.shiftLeft_eq, Nat.one_mul] at hn
  have hwidth : 2 ^ F.width = 2 * 2 ^ F.unsignedWidth := Nat.pow_succ'
  rw [unsigned, ofParts, BitVec.toNat_ofNat, hwidth, Nat.shiftLeft_eq, Nat.one_mul,
    Nat.mod_mod_of_dvd _ (Nat.dvd_mul_left _ 2)]
  cases negative with
  | false => exact Nat.mod_eq_of_lt hn
  | true => exact (Nat.add_mod_left ..).trans (Nat.mod_eq_of_lt hn)

end Binary

/-- A finite number of the format `F`. -/
@[ext]
structure Finite (F : Format) extends Binary F where
  unsigned_lt : toBinary.unsigned < F.infinity
  deriving DecidableEq, Repr

namespace Finite

variable {F : Format}

/-- Finite numbers are equal as numbers: the two zeros are. -/
instance : BEq (Finite F) := ⟨fun x y => x.toBinary == y.toBinary⟩

/-- The number with the given sign and unsigned part. -/
def ofParts (negative : Bool) (unsigned : Nat) (h : unsigned < F.infinity) : Finite F where
  toBinary := .ofParts negative unsigned
  unsigned_lt := by rwa [Binary.unsigned_ofParts negative (Nat.lt_trans h F.infinity_lt)]

/-- The same size with the given sign. -/
def withSign (x : Finite F) (negative : Bool) : Finite F :=
  ofParts negative x.unsigned x.unsigned_lt

/-- A finite number is a number. -/
theorem isNaN_toBinary (x : Finite F) : x.isNaN = false :=
  decide_eq_false (Nat.lt_asymm x.unsigned_lt)

end Finite

/-- A quotient rounded to the nearest whole number, a tie to the even one. -/
def roundToEven (num den : Nat) : Nat :=
  let low := num / den
  match compare (2 * (num % den)) den with
  | .lt => low
  | .gt => low + 1
  | .eq => low + low % 2

/-- The greatest `e` with `2^e ≤ num / den`. -/
def floorLog2 (num den : Nat) : Int :=
  let e : Int := (num.log2 : Int) - den.log2
  if den <<< e.toNat ≤ num <<< (-e).toNat then e else e - 1

/-- **The nearest number to `num / den`**, a tie to the even pattern; `none` where that is infinite.
Patterns count the representable sizes in order, so a carry out of the fraction is a carry into the
exponent, and no case of its own. -/
def Finite.ofRatio? (F : Format) (num den : Nat) : Option (Finite F) :=
  if num = 0 then some (ofParts false 0 F.infinity_pos)
  else
    let place := max F.leastPlace (floorLog2 num den - F.fractionBits)
    let units := roundToEven (num <<< (-place).toNat) (den <<< place.toNat)
    let pattern := (place - F.leastPlace).toNat <<< F.fractionBits + units
    if h : pattern < F.infinity then some (ofParts false pattern h) else none

end SelectQuery.Number
