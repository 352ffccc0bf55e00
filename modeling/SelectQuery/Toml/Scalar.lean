import SelectQuery.Calendar
import SelectQuery.Number.Binary
import SelectQuery.Text.Hex
import SelectQuery.Toml.Table

/-!
# Toml/Scalar — values without quotes

Truth values, integers, floating-point numbers, dates and times are recognised by their form alone.
Digits may be grouped with underscores, each between two digits. An integer has to fit one hundred
and twenty-eight bits, and a floating-point number may not round to infinity.
-/

namespace SelectQuery.Toml

/-- The digits of a class without the underscores between them; at least one. -/
def ungroup (isDigit : Char → Bool) : List Char → Option (List Char)
  | [] => none
  | [c] => if isDigit c then some [c] else none
  | c :: '_' :: cs => if isDigit c then (ungroup isDigit cs).map (c :: ·) else none
  | c :: cs => if isDigit c then (ungroup isDigit cs).map (c :: ·) else none

/-- The number that digits stand for in a base. -/
def digitsValue (base : Nat) (cs : List Char) : Nat :=
  cs.foldl (fun n c => base * n + (Text.hexDigit? c).getD 0) 0

/-- A digit of a base up to sixteen. -/
def isDigitOf (base : Nat) (c : Char) : Bool := (Text.hexDigit? c).any (· < base)

/-- Decimal digits without a zero in front of others. -/
def wholeDigits? (cs : List Char) : Option (List Char) := do
  let ds ← ungroup Char.isDigit cs
  if ds.head? = some '0' ∧ 1 < ds.length then none else return ds

/-- The sign and what is behind it. -/
def splitSign : List Char → Bool × List Char
  | '+' :: cs => (false, cs)
  | '-' :: cs => (true, cs)
  | cs => (false, cs)

/-- An integer: decimal with an optional sign, or hexadecimal, octal or binary behind a mark. -/
def integer? (cs : List Char) : Option Int := do
  let n ← match cs with
    | '0' :: 'x' :: ds => (ungroup (isDigitOf 16) ds).map fun ds => (digitsValue 16 ds : Int)
    | '0' :: 'o' :: ds => (ungroup (isDigitOf 8) ds).map fun ds => (digitsValue 8 ds : Int)
    | '0' :: 'b' :: ds => (ungroup (isDigitOf 2) ds).map fun ds => (digitsValue 2 ds : Int)
    | cs =>
      let (negative, ds) := splitSign cs
      (wholeDigits? ds).map fun ds =>
        if negative then -(digitsValue 10 ds : Int) else digitsValue 10 ds
  if -(1 <<< 127 : Nat) ≤ n ∧ n < (1 <<< 128 : Nat) then return n else none

/-- The number `digits · 10^exponent` does not round to infinity. -/
def isInRange (digits : Nat) (exponent : Int) : Bool :=
  let size : Int := (Nat.toDigits 10 digits).length + exponent
  if digits = 0 ∨ size < 300 then true
  else if 320 < size then false
  else (Number.Finite.ofRatio? Number.Format.double (digits * Nat.pow 10 exponent.toNat)
    (Nat.pow 10 (-exponent).toNat)).isSome

/-- The digits of a floating-point number and the power of ten behind them. There is a point with
digits, or a power of ten, or both. -/
def floatParts? (cs : List Char) : Option (Nat × Int) := do
  let isMark (c : Char) : Bool := c == 'e' || c == 'E'
  let front := cs.takeWhile (! isMark ·)
  let power := cs.dropWhile (! isMark ·)
  let whole ← wholeDigits? (front.takeWhile (· != '.'))
  let fraction ← match front.dropWhile (· != '.') with
    | [] => if power.isEmpty then none else some []
    | _ :: ds => ungroup Char.isDigit ds
  let exponent : Int ← match power with
    | [] => some 0
    | _ :: ds =>
      let (negative, ds) := splitSign ds
      (ungroup Char.isDigit ds).map fun ds =>
        if negative then -(digitsValue 10 ds : Int) else digitsValue 10 ds
  return (digitsValue 10 (whole ++ fraction), exponent - fraction.length)

/-- The form of a floating-point number that is infinite by name or finite. -/
def isFloat (cs : List Char) : Bool :=
  let (_, cs) := splitSign cs
  cs == "inf".toList || cs == "nan".toList || (floatParts? cs).any fun (n, e) => isInRange n e

/-- The number of two digits. -/
def pair? (a b : Char) : Option Nat :=
  if a.isDigit && b.isDigit then some (digitsValue 10 [a, b]) else none

/-- What is behind a date at the front. -/
def afterDate? : List Char → Option (List Char)
  | a :: b :: c :: d :: '-' :: m :: n :: '-' :: x :: y :: rest => do
    let century ← pair? a b
    let year ← pair? c d
    let month ← pair? m n
    let day ← pair? x y
    if 1 ≤ day ∧ day ≤ daysInMonth (100 * century + year : Nat) month then return rest else none
  | _ => none

/-- What is behind the fraction of a second at the front, if there is one. -/
def afterFraction? : List Char → Option (List Char)
  | '.' :: cs =>
    if cs.head?.any Char.isDigit then some (cs.dropWhile Char.isDigit) else none
  | cs => some cs

/-- What is behind a time of day at the front; seconds may be missing, and there may be sixty. -/
def afterTime? : List Char → Option (List Char)
  | a :: b :: ':' :: m :: n :: rest => do
    let hour ← pair? a b
    let minute ← pair? m n
    if 24 ≤ hour ∨ 60 ≤ minute then none
    match rest with
    | ':' :: x :: y :: rest => if (← pair? x y) ≤ 60 then afterFraction? rest else none
    | ':' :: _ => none
    | rest => return rest
  | _ => none

/-- An offset from universal time, or nothing. -/
def isOffset : List Char → Bool
  | [] | ['Z'] | ['z'] => true
  | [sign, a, b, ':', m, n] =>
    (sign == '+' || sign == '-') && (pair? a b).any (· < 24) && (pair? m n).any (· < 60)
  | _ => false

/-- The form of a date, of a time, or of both with an optional offset. -/
def isDateTime (cs : List Char) : Bool :=
  match afterDate? cs with
  | some [] => true
  | some (sep :: cs) =>
    (sep == 'T' || sep == 't' || sep == ' ') && (afterTime? cs).any isOffset
  | none => afterTime? cs == some []

/-- The value that a text without quotes stands for. -/
def scalar? (cs : List Char) : Option Item :=
  if cs = "true".toList then some (.bool true)
  else if cs = "false".toList then some (.bool false)
  else match integer? cs with
    | some n => some (.integer n)
    | none =>
      if isFloat cs then some .float else if isDateTime cs then some .dateTime else none

end SelectQuery.Toml
