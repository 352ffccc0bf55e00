/-!
# Calendar — dates and times of day

Dates are those of the proleptic Gregorian calendar, with a year zero and negative years before it.
Times of day have nanoseconds; a leap second is written as the sixtieth second, and is held as
second 59 with a second more of nanoseconds. A date or time is valid by its type, so a text made
from one is never out of shape.
-/

namespace SelectQuery

/-! ## Dates -/

/-- A year of 366 days. -/
def isLeapYear (year : Int) : Bool := year % 4 == 0 && (year % 100 != 0 || year % 400 == 0)

/-- The days of a month of a year; zero for a month that does not exist. -/
def daysInMonth (year : Int) : Nat → Nat
  | 1 | 3 | 5 | 7 | 8 | 10 | 12 => 31
  | 4 | 6 | 9 | 11 => 30
  | 2 => if isLeapYear year then 29 else 28
  | _ => 0

/-- The day is on the calendar, and its year within the span that dates cover. -/
def Date.IsValid (year : Int) (month day : Nat) : Prop :=
  -262143 ≤ year ∧ year ≤ 262142 ∧ 1 ≤ day ∧ day ≤ daysInMonth year month

instance (year : Int) (month day : Nat) : Decidable (Date.IsValid year month day) :=
  inferInstanceAs (Decidable (_ ∧ _))

/-- A day of the calendar. -/
structure Date where
  year : Int
  month : Nat
  day : Nat
  isValid : Date.IsValid year month day
  deriving DecidableEq, Repr

/-- The day with these numbers, if there is one. -/
def Date.ofYmd? (year : Int) (month day : Nat) : Option Date :=
  if h : Date.IsValid year month day then some ⟨year, month, day, h⟩ else none

/-! ## Times of day -/

/-- The numbers are in range; nanoseconds reach a second further in second 59. -/
def Time.IsValid (hour minute second nano : Nat) : Prop :=
  hour < 24 ∧ minute < 60 ∧ second < 60 ∧
    (nano < 1000000000 ∨ second = 59 ∧ nano < 2000000000)

instance (hour minute second nano : Nat) : Decidable (Time.IsValid hour minute second nano) :=
  inferInstanceAs (Decidable (_ ∧ _))

/-- A time of day. Leap seconds come after second 59 alone: times with one after another second,
which some clocks can hold, are left out. -/
structure Time where
  hour : Nat
  minute : Nat
  second : Nat
  nano : Nat
  isValid : Time.IsValid hour minute second nano
  deriving DecidableEq, Repr

/-- The time with these numbers, if there is one. -/
def Time.ofHmsn? (hour minute second nano : Nat) : Option Time :=
  if h : Time.IsValid hour minute second nano then some ⟨hour, minute, second, nano, h⟩ else none

/-- A day and a time on it. -/
@[ext]
structure DateTime where
  date : Date
  time : Time
  deriving DecidableEq, Repr

/-! ## Their texts -/

/-- A number in decimal, with zeros in front up to a width. -/
def padded (width n : Nat) : List Char := (Nat.toDigits 10 n).leftpad width '0'

/-- Four digits for the years 0 to 9999; any other year has a sign in front and at least four. -/
def yearChars (year : Int) : List Char :=
  if 0 ≤ year ∧ year ≤ 9999 then padded 4 year.toNat
  else (if year < 0 then '-' else '+') :: padded 4 year.natAbs

/-- Year, month and day. -/
def Date.chars (d : Date) : List Char :=
  yearChars d.year ++ '-' :: (padded 2 d.month ++ '-' :: padded 2 d.day)

/-- The part of a second: nothing, or a point and three, six or nine digits, the fewest that are
exact. -/
def fractionChars (nano : Nat) : List Char :=
  if nano = 0 then []
  else if nano % 1000000 = 0 then '.' :: padded 3 (nano / 1000000)
  else if nano % 1000 = 0 then '.' :: padded 6 (nano / 1000)
  else '.' :: padded 9 nano

/-- Hour, minute and second; nanoseconds past a second count as the next second. -/
def Time.chars (t : Time) : List Char :=
  padded 2 t.hour ++ ':' :: (padded 2 t.minute ++ ':' :: (padded 2 (t.second + t.nano / 1000000000)
    ++ fractionChars (t.nano % 1000000000)))

/-- Date and time with a character between them. -/
def DateTime.chars (between : Char) (t : DateTime) : List Char :=
  t.date.chars ++ between :: t.time.chars

end SelectQuery
