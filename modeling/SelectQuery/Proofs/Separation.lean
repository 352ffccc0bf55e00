import Std.Data.String.ToInt
import SelectQuery.Proofs.Literal

/-!
# Proofs/Separation — literals tell values apart

Two values of one kind that have one literal are one value, unless they are floating-point numbers
or documents (`Value.literals_separate`).  A number ends where a character stands that is no digit,
and between the numbers of a date or time there are only such, so it is read off from the left,
number by number (`padded_append_inj`).  Three things are not plain numbers.

* A year has a sign exactly if it is none of those that are written without
  (`yearChars_append_inj`).
* Of the nanoseconds zeros are left off in threes; how many, is said by the digits that are left
  (`nanosOf_fractionChars`).
* A second is written as the sixtieth only if it is a leap second, and then a second of its
  nanoseconds has been counted (`Time.chars_injective`).
-/

namespace SelectQuery

/-! ## Numbers with zeros in front -/

/-- **No digit comes next**, so that a number ends here. -/
def NoDigitNext (cs : List Char) : Prop := ∀ c, cs.head? = some c → c.isDigit = false

theorem noDigitNext_nil : NoDigitNext [] := fun _ h => nomatch h

theorem noDigitNext_cons {c : Char} (hc : c.isDigit = false) (cs : List Char) :
    NoDigitNext (c :: cs) := by
  intro d hd
  rwa [← Option.some.inj hd]

/-- Zeros in front do not count. -/
theorem ofDigitChars_padded (width n : Nat) : Nat.ofDigitChars 10 (padded width n) 0 = n := by
  rw [padded, List.leftpad, Nat.ofDigitChars_append, Nat.ofDigitChars_replicate_zero, Nat.mul_zero,
    Nat.ofDigitChars_ten_toDigits]

/-- A number that fits the width has just as many digits. -/
theorem length_padded {width n : Nat} (hwidth : 0 < width) (hn : n < Nat.pow 10 width) :
    (padded width n).length = width := by
  rw [padded, List.length_leftpad]
  exact Nat.max_eq_left ((Nat.length_toDigits_le_iff (by decide) hwidth).mpr hn)

/-- A number begins with a digit. -/
theorem exists_padded_eq_cons (width n : Nat) :
    ∃ c cs, padded width n = c :: cs ∧ c.isDigit = true := by
  have hne : padded width n ≠ [] := by simp [padded, List.leftpad, Nat.toDigits_ne_nil]
  obtain ⟨c, cs, hcons⟩ := List.exists_cons_of_ne_nil hne
  exact ⟨c, cs, hcons, isDigit_padded width n c (hcons ▸ List.mem_cons_self)⟩

section Front

variable {width width' n m : Nat} {c : Char} {r r' : List Char}

/-- **A number ends where no digit comes next**, whatever its width. -/
theorem padded_append_inj (hr : NoDigitNext r) (hr' : NoDigitNext r')
    (h : padded width n ++ r = padded width' m ++ r') : n = m ∧ r = r' := by
  have hdigits : padded width n = padded width' m := by
    rw [← Lexicon.takeWhile_run (isDigit_padded width n) hr, h,
      Lexicon.takeWhile_run (isDigit_padded width' m) hr']
  refine ⟨?_, List.append_cancel_left (hdigits ▸ h)⟩
  rw [← ofDigitChars_padded width n, hdigits, ofDigitChars_padded]

/-- A mark behind a number ends it. -/
theorem padded_cons_inj (hc : c.isDigit = false)
    (h : padded width n ++ c :: r = padded width' m ++ c :: r') : n = m ∧ r = r' := by
  obtain ⟨hn, hrest⟩ := padded_append_inj (noDigitNext_cons hc r) (noDigitNext_cons hc r') h
  exact ⟨hn, (List.cons.inj hrest).2⟩

/-- What has a sign in front does not begin with a number. -/
theorem padded_append_ne_cons (hc : c.isDigit = false) : padded width n ++ r ≠ c :: r' := by
  obtain ⟨d, ds, hcons, hd⟩ := exists_padded_eq_cons width n
  intro h
  rw [hcons, List.cons_append] at h
  rw [(List.cons.inj h).1, hc] at hd
  cases hd

/-! ## Dates -/

/-- The sign of a year that has one. -/
def yearSign (year : Int) : Char := if year < 0 then '-' else '+'

theorem isDigit_yearSign (year : Int) : (yearSign year).isDigit = false := by
  rw [yearSign]
  split <;> rfl

/-- The sign of a year says on which side of zero it is. -/
theorem yearSign_inj {y z : Int} (h : yearSign y = yearSign z) (habs : y.natAbs = z.natAbs) :
    y = z := by
  rw [yearSign, yearSign] at h
  split at h <;> split at h
  · omega
  · exact absurd h (by decide)
  · exact absurd h (by decide)
  · omega

/-- **A year says where it ends**, and whether it is one of those with a sign. -/
theorem yearChars_append_inj {y z : Int} (hr : NoDigitNext r) (hr' : NoDigitNext r')
    (h : yearChars y ++ r = yearChars z ++ r') : y = z ∧ r = r' := by
  by_cases hy : 0 ≤ y ∧ y ≤ 9999 <;> by_cases hz : 0 ≤ z ∧ z ≤ 9999
  · rw [yearChars, yearChars, if_pos hy, if_pos hz] at h
    obtain ⟨hyear, hrest⟩ := padded_append_inj hr hr' h
    exact ⟨by omega, hrest⟩
  · rw [yearChars, yearChars, if_pos hy, if_neg hz] at h
    exact absurd h (padded_append_ne_cons (isDigit_yearSign z))
  · rw [yearChars, yearChars, if_neg hy, if_pos hz] at h
    exact absurd h.symm (padded_append_ne_cons (isDigit_yearSign y))
  · rw [yearChars, yearChars, if_neg hy, if_neg hz] at h
    obtain ⟨hsign, htail⟩ := List.cons.inj h
    obtain ⟨habs, hrest⟩ := padded_append_inj hr hr' htail
    exact ⟨yearSign_inj hsign habs, hrest⟩

end Front

/-- **A date is read off from the left.** -/
theorem Date.chars_append_inj {d e : Date} {r r' : List Char} (hr : NoDigitNext r)
    (hr' : NoDigitNext r') (h : d.chars ++ r = e.chars ++ r') : d = e ∧ r = r' := by
  obtain ⟨year, month, day, hd⟩ := d
  obtain ⟨year', month', day', he⟩ := e
  simp only [Date.chars, List.append_assoc, List.cons_append] at h
  obtain ⟨rfl, hmonths⟩ := yearChars_append_inj (noDigitNext_cons rfl _) (noDigitNext_cons rfl _) h
  obtain ⟨rfl, hdays⟩ := padded_cons_inj rfl (List.cons.inj hmonths).2
  obtain ⟨rfl, hrest⟩ := padded_append_inj hr hr' hdays
  exact ⟨rfl, hrest⟩

theorem Date.chars_injective : Function.Injective Date.chars := by
  intro d e h
  refine (Date.chars_append_inj noDigitNext_nil noDigitNext_nil ?_).1
  rw [h]

/-! ## Times of day -/

/-- **The nanoseconds of a fraction**: its digits behind the point, filled up to nine. -/
def nanosOf (cs : List Char) : Nat :=
  Nat.ofDigitChars 10 cs.tail 0 * Nat.pow 10 (9 - cs.tail.length)

theorem nanosOf_point {width n : Nat} (hwidth : 0 < width) (hn : n < Nat.pow 10 width) :
    nanosOf ('.' :: padded width n) = n * Nat.pow 10 (9 - width) := by
  rw [nanosOf, List.tail_cons, ofDigitChars_padded, length_padded hwidth hn]

/-- **A fraction says how many nanoseconds it is.** -/
theorem nanosOf_fractionChars {nano : Nat} (h : nano < 1000000000) :
    nanosOf (fractionChars nano) = nano := by
  rw [fractionChars]
  split
  · next hzero => rw [hzero]; rfl
  · split
    · rw [nanosOf_point (by decide) (by rw [Nat.pow_eq]; omega), Nat.pow_eq]
      omega
    · split
      · rw [nanosOf_point (by decide) (by rw [Nat.pow_eq]; omega), Nat.pow_eq]
        omega
      · rw [nanosOf_point (by decide) h, Nat.pow_eq]
        omega

theorem noDigitNext_fractionChars (nano : Nat) : NoDigitNext (fractionChars nano) := by
  rw [fractionChars]
  split
  · exact noDigitNext_nil
  · split
    · exact noDigitNext_cons rfl _
    · split <;> exact noDigitNext_cons rfl _

/-- **A time is read off from the left.**  Times with the same second, as it is written, and the
same fraction of it are both in a leap second or neither is. -/
theorem Time.chars_injective : Function.Injective Time.chars := by
  intro t u h
  obtain ⟨hour, minute, second, nano, ht⟩ := t
  obtain ⟨hour', minute', second', nano', hu⟩ := u
  simp only [Time.chars] at h
  obtain ⟨rfl, hminutes⟩ := padded_cons_inj rfl h
  obtain ⟨rfl, hseconds⟩ := padded_cons_inj rfl hminutes
  obtain ⟨hsecond, hfractions⟩ := padded_append_inj (noDigitNext_fractionChars _)
    (noDigitNext_fractionChars _) hseconds
  have hnano := congrArg nanosOf hfractions
  rw [nanosOf_fractionChars (Nat.mod_lt _ (by decide)),
    nanosOf_fractionChars (Nat.mod_lt _ (by decide))] at hnano
  obtain ⟨-, -, hs, hn⟩ := ht
  obtain ⟨-, -, hs', hn'⟩ := hu
  obtain ⟨rfl, rfl⟩ : second = second' ∧ nano = nano' := by omega
  rfl

theorem DateTime.chars_injective {between : Char} (hb : between.isDigit = false) :
    Function.Injective (DateTime.chars between) := by
  intro t u h
  have hdate := Date.chars_append_inj (noDigitNext_cons hb _) (noDigitNext_cons hb _) h
  have htime := Time.chars_injective (List.cons.inj hdate.2).2
  exact DateTime.ext hdate.1 htime

/-! ## Identifiers -/

/-- **The hyphens left out, an identifier is the digits of its bytes.** -/
theorem Uuid.filter_chars (u : Uuid) :
    u.chars.filter (· ≠ '-') = Text.lowerHex u.bytes.toList := by
  let bs := u.bytes.toList
  have hyphen (cs : List Char) : ('-' :: cs).filter (· ≠ '-') = cs.filter (· ≠ '-') :=
    List.filter_cons_of_neg (by decide)
  have hdigits (bytes : List UInt8) :
      (Text.lowerHex bytes).filter (· ≠ '-') = Text.lowerHex bytes :=
    List.filter_eq_self.mpr fun c hc => decide_eq_true fun e =>
      Text.notMem_lowerHex (by decide) bytes (e ▸ hc)
  have happend (xs ys : List UInt8) :
      Text.lowerHex xs ++ Text.lowerHex ys = Text.lowerHex (xs ++ ys) := List.flatMap_append.symm
  have hgroup (i n : Nat) : (bs.drop i).take n ++ bs.drop (i + n) = bs.drop i := by
    rw [← List.drop_drop, List.take_append_drop]
  have hlast : (bs.drop 10).take 6 = bs.drop 10 := List.take_of_length_le (by simp [bs])
  have hgroups : (bs.drop 0).take 4 ++ ((bs.drop 4).take 2 ++ ((bs.drop 6).take 2 ++
      ((bs.drop 8).take 2 ++ (bs.drop 10).take 6))) = bs := by
    rw [hlast, hgroup 8 2, hgroup 6 2, hgroup 4 2, hgroup 0 4, List.drop_zero]
  simp only [chars, List.filter_append, hyphen, hdigits, happend]
  rw [hgroups]

theorem Uuid.chars_injective : Function.Injective Uuid.chars := by
  intro u v h
  have hbytes : Text.lowerHex u.bytes.toList = Text.lowerHex v.bytes.toList := by
    rw [← u.filter_chars, h, v.filter_chars]
  have hlists := Text.hexOf_inj Text.hexDigit?_lowerHexDigit hbytes
  exact Uuid.ext (Vector.toList_inj.mp hlists)

/-! ## Values -/

theorem encloseChars_injective : Function.Injective encloseChars := by
  intro cs ds h
  have hchars := List.cons.inj (String.ofList_inj.mp h)
  exact List.append_cancel_right hchars.2

/-- Values of the kind are told apart by their literals. -/
def Kind.isExact : Kind → Bool
  | single | double | json => false
  | _ => true

/-- **Scalars of a kind are told apart by their literals.** -/
theorem Scalar.literal_inj {x y : Scalar} (hkind : x.kind = y.kind) (hx : x.kind.isExact = true)
    (h : x.literal = y.literal) : x = y := by
  have hbool : ∀ a b, (bool a).literal = (bool b).literal → a = b := by decide
  have hint {n m : Int} (h : toString n = toString m) : n = m := Int.repr_inj.mp h
  have hnat {n m : Nat} (h : toString n = toString m) : n = m := Nat.repr_inj.mp h
  cases x <;> cases y <;> first | (cases hkind; done) | (cases hx; done) | skip
  case bool.bool a b => rw [hbool a b h]
  case int8.int8 n m => rw [Int8.toInt_inj.mp (hint h)]
  case int16.int16 n m => rw [Int16.toInt_inj.mp (hint h)]
  case int32.int32 n m => rw [Int32.toInt_inj.mp (hint h)]
  case int64.int64 n m => rw [Int64.toInt_inj.mp (hint h)]
  case uint8.uint8 n m => rw [UInt8.toNat_inj.mp (hnat h)]
  case uint16.uint16 n m => rw [UInt16.toNat_inj.mp (hnat h)]
  case uint32.uint32 n m => rw [UInt32.toNat_inj.mp (hnat h)]
  case uint64.uint64 n m => rw [UInt64.toNat_inj.mp (hnat h)]
  case char.char c d =>
    have hsingle := String.toList_inj.mpr (Text.quote_injective _ _ h)
    rw [String.toList_singleton, String.toList_singleton] at hsingle
    rw [(List.cons.inj hsingle).1]
  case text.text s t => rw [Text.quote_injective _ _ h]
  case bytes.bytes bs cs =>
    have hdigits := encloseChars_injective ((String.append_right_inj _).mp h)
    rw [Text.hexOf_inj Text.hexDigit?_upperHexDigit hdigits]
  case date.date d e => rw [Date.chars_injective (encloseChars_injective h)]
  case time.time t u => rw [Time.chars_injective (encloseChars_injective h)]
  case dateTime.dateTime t u =>
    rw [DateTime.chars_injective rfl (encloseChars_injective h)]
  case instant.instant t u =>
    have hzone := List.append_cancel_right (encloseChars_injective h)
    rw [DateTime.chars_injective rfl hzone]
  case uuid.uuid u v => rw [Uuid.chars_injective (encloseChars_injective h)]

/-- SQL Server tells truth values and bytes apart in its own words, and all else in those of
everyone. -/
theorem Scalar.serverLiteral_inj {x y : Scalar} (hkind : x.kind = y.kind)
    (hx : x.kind.isExact = true)
    (h : Dialect.serverLiteral (.scalar x) = Dialect.serverLiteral (.scalar y)) : x = y := by
  have hbool : ∀ a b, Dialect.serverLiteral (.scalar (bool a)) =
      Dialect.serverLiteral (.scalar (bool b)) → a = b := by decide
  cases x <;> cases y <;> first | (cases hkind; done) | skip
  case bool.bool a b => rw [hbool a b h]
  case bytes.bytes bs cs =>
    have hdigits := String.ofList_inj.mp ((String.append_right_inj _).mp h)
    rw [Text.hexOf_inj Text.hexDigit?_upperHexDigit hdigits]
  all_goals exact literal_inj rfl hx h

namespace Value

/-- Values are told apart where NULL is and scalars are: there is one NULL of each kind. -/
theorem eq_of_written_eq {written : Value → String}
    (hnull : ∀ v, written v = "NULL" ↔ v.isNull = true)
    (hscalar : ∀ {x y : Scalar}, x.kind = y.kind → x.kind.isExact = true →
      written (scalar x) = written (scalar y) → x = y)
    {v w : Value} (hkind : v.kind = w.kind) (hexact : v.kind.isExact = true)
    (h : written v = written w) : v = w := by
  have hsame : v.isNull = true ↔ w.isNull = true := by rw [← hnull, ← hnull, h]
  match v, w with
  | null k, null l => exact congrArg null hkind
  | null k, scalar y => exact absurd (hsame.mp rfl) Bool.false_ne_true
  | scalar x, null l => exact absurd (hsame.mpr rfl) Bool.false_ne_true
  | scalar x, scalar y => rw [hscalar hkind hexact h]

/-- **Literals separate values.**  Two values of a kind, NULL among them, have one literal only if
they are one value, and so they do in every database, in the words of SQL Server too; but for
floating-point numbers and documents. -/
theorem literals_separate {v w : Value} (hkind : v.kind = w.kind)
    (hexact : v.kind.isExact = true) :
    (v.literal = w.literal ↔ v = w) ∧
    ∀ b : Database, b.dialect.quoteValue v = b.dialect.quoteValue w ↔ v = w := by
  have hliteral : v.literal = w.literal → v = w :=
    eq_of_written_eq literal_eq_null_iff Scalar.literal_inj hkind hexact
  have hserver : Dialect.serverLiteral v = Dialect.serverLiteral w → v = w :=
    eq_of_written_eq serverLiteral_eq_null_iff Scalar.serverLiteral_inj hkind hexact
  refine ⟨⟨hliteral, fun h => by rw [h]⟩, fun b => ⟨fun h => ?_, fun h => by rw [h]⟩⟩
  rcases quoteValue_eq b with hb | hb
  · exact hliteral (by rwa [hb] at h)
  · exact hserver (by rwa [hb] at h)

/-- The middle of a leap second. -/
def inLeapSecond : DateTime :=
  ⟨⟨2016, 12, 31, by decide⟩, ⟨23, 59, 59, 1500000000, by decide⟩⟩

/-- The middle of the second before it. -/
def beforeLeapSecond : DateTime :=
  ⟨⟨2016, 12, 31, by decide⟩, ⟨23, 59, 59, 500000000, by decide⟩⟩

theorem leapSecond_separate :
    let v := scalar (.instant inLeapSecond)
    let w := scalar (.instant beforeLeapSecond)
    v.kind = w.kind ∧ v.kind.isExact = true ∧
      v.literal = "'2016-12-31T23:59:60.500+00:00'" ∧
      v.literal ≠ w.literal ∧ Dialect.sqlserver.quoteValue v ≠ Dialect.sqlserver.quoteValue w := by
  intro v w
  have hne : v ≠ w := fun h => absurd (Scalar.instant.inj (scalar.inj h)) (by decide)
  obtain ⟨hliteral, hquoted⟩ := literals_separate (v := v) (w := w) rfl rfl
  exact ⟨rfl, rfl, by decide +kernel, fun h => hne (hliteral.mp h),
    fun h => hne ((hquoted .sqlserver).mp h)⟩

end Value

end SelectQuery
