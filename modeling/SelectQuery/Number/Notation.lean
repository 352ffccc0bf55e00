import SelectQuery.Number.Shortest

/-!
# Number/Notation — how numbers are written

A decimal is laid out with its point in place (`positional`) or behind its first digit with a power
of ten (`scientific`). SQL literals of floating-point numbers are always positional and keep no
point behind a whole number; JSON texts switch to the power of ten for very large and very small
numbers and mark every number that is not an integer.
-/

namespace SelectQuery.Number

namespace Decimal

/-- The digits, without their place. -/
def digitChars (d : Decimal) : List Char := Nat.toDigits 10 d.digits

/-- Where the point stands, counted from the first digit. -/
def pointAt (d : Decimal) : Int := d.digitChars.length + d.exponent

/-- The digits with zeros and a point where they are needed. -/
def positional (d : Decimal) : List Char :=
  let ds := d.digitChars
  if 0 ≤ d.exponent then ds ++ List.replicate d.exponent.toNat '0'
  else if 0 < d.pointAt then ds.take d.pointAt.toNat ++ '.' :: ds.drop d.pointAt.toNat
  else '0' :: '.' :: (List.replicate (-d.pointAt).toNat '0' ++ ds)

/-- One digit, the point if more follow, and the power of ten with its sign. -/
def scientific (d : Decimal) : List Char :=
  let e := d.pointAt - 1
  let power := (if e < 0 then '-' else '+') :: Nat.toDigits 10 e.natAbs
  match d.digitChars with
  | [c] => c :: 'e' :: power
  | c :: cs => c :: '.' :: (cs ++ 'e' :: power)
  | [] => 'e' :: power

end Decimal

namespace Binary

variable {F : Format}

/-- **The literal of a number:** the fewest digits that read back, the upper one of two equally
near, in positional notation. -/
def literal (x : Binary F) : String :=
  if x.isNaN then "NaN"
  else
    let size :=
      if x.isInfinite then "inf".toList
      else if x.isZero then ['0']
      else (x.magnitude.shortest .up).positional
    String.ofList (if x.negative then '-' :: size else size)

end Binary

/-- **The JSON text of a finite number:** the fewest digits that read back, the even one of two
equally near. The point stands in place while the first digit is worth at least `10^-5` and less
than `10^16`, and a whole number keeps a zero behind its point. -/
def Finite.jsonText {F : Format} (x : Finite F) : String :=
  let size :=
    if x.isZero then ['0', '.', '0']
    else
      let d := x.magnitude.shortest .toEven
      if -5 < d.pointAt ∧ d.pointAt ≤ 16 then
        if 0 ≤ d.exponent then d.positional ++ ['.', '0'] else d.positional
      else d.scientific
  String.ofList (if x.negative then '-' :: size else size)

end SelectQuery.Number
