import SelectQuery.Number.Binary

/-!
# Number/Shortest — the fewest digits that read back

The reals that round to a given binary number form an interval: from halfway to the neighbour below
to halfway to the neighbour above, its ends included exactly when the number is even. `shortest`
takes the decimal of fewest digits in that interval, and of several the nearest to the number; where
two are equally near, the caller's rule decides.
-/

namespace SelectQuery.Number

/-- The decimal number `digits · 10^exponent`. -/
structure Decimal where
  digits : Nat
  exponent : Int
  deriving DecidableEq, Repr

/-- Which of two equally near decimals is taken. -/
inductive Tie where
  | toEven
  | up
  deriving DecidableEq, Repr

namespace Magnitude

/-- `a · 10^i` against `n · 2^j`, exactly. -/
def compareScaled (a : Nat) (i : Int) (n : Nat) (j : Int) : Ordering :=
  compare ((a * Nat.pow 10 i.toNat) <<< (-j).toNat) ((n * Nat.pow 10 (-i).toNat) <<< j.toNat)

/-- The decimal lies among the reals that round to the number. -/
def readsBack (x : Magnitude) (d : Decimal) : Bool :=
  let low := if x.narrowBelow then 4 * x.m - 1 else 4 * x.m - 2
  let atLow := compareScaled d.digits d.exponent low (x.q - 2)
  let atHigh := compareScaled d.digits d.exponent (4 * x.m + 2) (x.q - 2)
  let even := x.m % 2 == 0
  (atLow == .gt || (even && atLow == .eq)) && (atHigh == .lt || (even && atHigh == .eq))

/-- Of the whole numbers around `num / den` the lower one comes first: it is the nearer, or as near
and the one that the rule takes. -/
def nearestIsLow (tie : Tie) (num den : Nat) : Bool :=
  match compare (2 * (num % den)) den with
  | .lt => true
  | .gt => false
  | .eq => tie == .toEven && num / den % 2 == 0

/-- The decimal with the exponent `e` that stands for the number: one of the two multiples of `10^e`
around it, if they read back, the nearer one first. -/
def onGrid? (x : Magnitude) (tie : Tie) (e : Int) : Option Decimal :=
  let num := (x.m * Nat.pow 10 (-e).toNat) <<< x.q.toNat
  let den := Nat.pow 10 e.toNat <<< (-x.q).toNat
  let low := num / den
  let candidates := if nearestIsLow tie num den then [low, low + 1] else [low + 1, low]
  (candidates.map (Decimal.mk · e)).find? x.readsBack

/-- An exponent `e` with the number below `10^e`, and not much above the least such. -/
def scale (x : Magnitude) : Int :=
  let bits : Int := x.m.log2 + 1 + x.q
  if 0 ≤ bits then bits * 30103 / 100000 + 1 else -(-bits * 30102 / 100000)

/-- The number itself, all its digits. -/
def exact (x : Magnitude) : Decimal :=
  if 0 ≤ x.q then ⟨x.m <<< x.q.toNat, 0⟩ else ⟨x.m * Nat.pow 5 (-x.q).toNat, x.q⟩

/-- The coarsest grid of decimals with a member that reads back gives the digits. Seventeen digits
identify any number of sixty-four bits, and the scale is at most two places off. -/
def shortest (x : Magnitude) (tie : Tie) : Decimal :=
  ((List.range 20).findSome? fun (n : Nat) => x.onGrid? tie (x.scale - n)).getD x.exact

end Magnitude

end SelectQuery.Number
