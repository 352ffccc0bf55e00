import SelectQuery.Proofs.Digits
import SelectQuery.Proofs.Quotation

/-!
# Proofs/Literal — where a literal ends, and what is NULL

Literals are of two sorts.  Numbers, truth values and bytes have no quote in front.  All else stands
between single quotes: characters, texts and documents with their quotes doubled, dates, times and
identifiers as they are.  The latter have no quotes to double (`quote_notMem_chars` and the lemmas
before it), so both are one thing, the quotation of a text (`Scalar.literal_of_inside?`), and what
is known of quotations is known of them: they end where the first quote stands that is not one of a
pair, and give their text back.

`NULL` is no quotation, and no number: there is no `U` in the text of a number (`Proofs/Digits`),
nor of what is infinite or no number at all.
-/

namespace SelectQuery

/-! ## Quotes in pairs -/

namespace Text

/-- **The quote stands in pairs only**, one beside the other. -/
inductive Paired (close : Char) : List Char → Prop
  | nil : Paired close []
  | pair {cs : List Char} (h : Paired close cs) : Paired close (close :: close :: cs)
  | other {c : Char} {cs : List Char} (hc : c ≠ close) (h : Paired close cs) : Paired close (c :: cs)

/-- **Doubling leaves no closer alone.** -/
theorem paired_double (close : Char) (cs : List Char) : Paired close (double close cs) := by
  induction cs with
  | nil => exact .nil
  | cons c cs ih =>
    rw [double]
    split
    · exact .pair ih
    · next hc => exact .other hc ih

/-- There is nothing to double in a text without the quote. -/
theorem double_of_notMem {close : Char} {cs : List Char} (h : close ∉ cs) :
    double close cs = cs := by
  induction cs with
  | nil => rfl
  | cons c cs ih =>
    obtain ⟨hc, hcs⟩ : close ≠ c ∧ close ∉ cs := by simpa using h
    rw [double, if_neg (Ne.symm hc), ih hcs]

/-- What is no digit is not among hexadecimal digits. -/
theorem notMem_lowerHex {c : Char} (hc : ∀ n < 16, lowerHexDigit n ≠ c) (bytes : List UInt8) :
    c ∉ lowerHex bytes := by
  intro h
  obtain ⟨b, -, hb⟩ := List.mem_flatMap.mp h
  have hhigh := hc (b.toNat / 16) (by have := b.toNat_lt; omega)
  have hlow := hc (b.toNat % 16) (by omega)
  simp [hhigh.symm, hlow.symm] at hb

end Text

/-- Characters without a quote are enclosed as their text is quoted. -/
theorem encloseChars_eq_quoteText {cs : List Char} (h : '\'' ∉ cs) :
    encloseChars cs = quoteText (String.ofList cs) := by
  rw [encloseChars, quoteText, Text.quote, String.toList_ofList, Text.double_of_notMem h]

/-! ## Dates, times and identifiers have no quotes -/

/-- A number has no quote in it. -/
theorem quote_notMem_padded (width n : Nat) : '\'' ∉ padded width n := notMem_padded rfl width n

theorem quote_notMem_yearChars (year : Int) : '\'' ∉ yearChars year := by
  rw [yearChars]
  split
  · exact quote_notMem_padded _ _
  · split <;> simp [quote_notMem_padded]

theorem quote_notMem_fractionChars (nano : Nat) : '\'' ∉ fractionChars nano := by
  rw [fractionChars]
  split
  · simp
  · split
    · simp [quote_notMem_padded]
    · split <;> simp [quote_notMem_padded]

/-- A date has no quote in it. -/
theorem Date.quote_notMem_chars (d : Date) : '\'' ∉ d.chars := by
  simp [chars, quote_notMem_yearChars, quote_notMem_padded]

/-- Nor has a time. -/
theorem Time.quote_notMem_chars (t : Time) : '\'' ∉ t.chars := by
  simp [chars, quote_notMem_fractionChars, quote_notMem_padded]

theorem DateTime.quote_notMem_chars (t : DateTime) {between : Char} (h : '\'' ≠ between) :
    '\'' ∉ t.chars between := by
  simp [chars, t.date.quote_notMem_chars, t.time.quote_notMem_chars, h]

/-- Nor has an identifier. -/
theorem Uuid.quote_notMem_chars (u : Uuid) : '\'' ∉ u.chars := by
  have hdigits (bytes : List UInt8) : '\'' ∉ Text.lowerHex bytes :=
    Text.notMem_lowerHex (by decide) bytes
  simp [chars, hdigits]

/-! ## Literals between quotes -/

/-- Values of the kind are written between single quotes. -/
def Kind.isQuoted : Kind → Bool
  | char | text | date | time | dateTime | instant | uuid | json => true
  | _ => false

namespace Scalar

/-- **The text that stands between the quotes** of a literal, before its own quotes are doubled. -/
def inside? : Scalar → Option String
  | char c => some (String.singleton c)
  | text s => some s
  | json doc => some doc.compact
  | date d => some (String.ofList d.chars)
  | time t => some (String.ofList t.chars)
  | dateTime t => some (String.ofList (t.chars ' '))
  | instant t => some (String.ofList (t.chars 'T' ++ "+00:00".toList))
  | uuid u => some (String.ofList u.chars)
  | _ => none

/-- A scalar of a quoted kind has a text between its quotes. -/
theorem exists_inside? {x : Scalar} (h : x.kind.isQuoted = true) : ∃ t, x.inside? = some t := by
  cases x <;> first | exact ⟨_, rfl⟩ | cases h

/-- **A literal between quotes is the quotation of a text.** -/
theorem literal_of_inside? {x : Scalar} {t : String} (h : x.inside? = some t) :
    x.literal = quoteText t := by
  cases x <;> cases h
  case char | text | json => rfl
  case date d => exact encloseChars_eq_quoteText d.quote_notMem_chars
  case time t => exact encloseChars_eq_quoteText t.quote_notMem_chars
  case dateTime t => exact encloseChars_eq_quoteText (t.quote_notMem_chars (by decide))
  case instant t =>
    have hmoment : '\'' ∉ t.chars 'T' := t.quote_notMem_chars (by decide)
    have hzone : '\'' ∉ t.chars 'T' ++ "+00:00".toList := by simp [hmoment]
    exact encloseChars_eq_quoteText hzone
  case uuid u => exact encloseChars_eq_quoteText u.quote_notMem_chars

end Scalar

/-! ## What is not NULL -/

theorem ne_null_of_notMem {s : String} (h : 'U' ∉ s.toList) : s ≠ "NULL" := by
  rintro rfl
  exact h (by decide)

/-- What begins with a quote is not `NULL`. -/
theorem quoteText_ne_null (s : String) : quoteText s ≠ "NULL" := by
  intro h
  have hchars := String.toList_inj.mpr h
  rw [quoteText, Text.toList_quote] at hchars
  cases hchars

theorem toString_nat_ne_null (n : Nat) : toString n ≠ "NULL" :=
  ne_null_of_notMem (notMem_toString_nat rfl n)

theorem toString_int_ne_null (n : Int) : toString n ≠ "NULL" :=
  ne_null_of_notMem (notMem_toString_int rfl (by decide) n)

/-- What is no number is not NULL either. -/
theorem Number.Binary.literal_ne_null {F : Format} (x : Binary F) : x.literal ≠ "NULL" := by
  refine ne_null_of_notMem ?_
  have hsize : 'U' ∉ if x.isInfinite then "inf".toList
      else if x.isZero then ['0'] else (x.magnitude.shortest .up).positional := by
    split
    · decide
    · split
      · decide
      · exact Decimal.notMem_positional rfl (by decide) _
  rw [literal]
  split
  · decide
  · rw [String.toList_ofList]
    split
    · simpa using hsize
    · exact hsize

/-- **No scalar is written like NULL.** -/
theorem Scalar.literal_ne_null (x : Scalar) : x.literal ≠ "NULL" := by
  cases hinside : x.inside? with
  | some t =>
    rw [literal_of_inside? hinside]
    exact quoteText_ne_null t
  | none =>
    cases x with
    | bool b => cases b <;> decide
    | int8 | int16 | int32 | int64 => exact toString_int_ne_null _
    | uint8 | uint16 | uint32 | uint64 => exact toString_nat_ne_null _
    | single x => exact x.literal_ne_null
    | double x => exact x.literal_ne_null
    | bytes bs =>
      intro h
      have hchars := String.toList_inj.mpr h
      simp [literal, encloseChars] at hchars
    | _ => cases hinside

namespace Value

/-- **The literal `NULL` is that of the NULLs**, and of nothing else. -/
theorem literal_eq_null_iff (v : Value) : v.literal = "NULL" ↔ v.isNull = true := by
  cases v with
  | null k => exact ⟨fun _ => rfl, fun _ => rfl⟩
  | scalar x => exact ⟨fun h => absurd h x.literal_ne_null, fun h => by cases h⟩

/-- SQL Server has its own words for truth values and bytes alone, and they are not NULL. -/
theorem serverLiteral_eq_null_iff (v : Value) :
    Dialect.serverLiteral v = "NULL" ↔ v.isNull = true := by
  rw [Dialect.serverLiteral.eq_def]
  split
  · next b => cases b <;> simp [isNull]
  · next bs =>
    refine ⟨fun h => ?_, fun h => by cases h⟩
    have hchars := String.toList_inj.mpr h
    simp at hchars
  · exact v.literal_eq_null_iff

/-- Databases write values as literals, but for what SQL Server has its own words for. -/
theorem quoteValue_eq (b : Database) :
    b.dialect.quoteValue = literal ∨ b.dialect.quoteValue = Dialect.serverLiteral := by
  cases b
  case sqlserver => exact .inr rfl
  all_goals exact .inl rfl

/-- So it is in every database. -/
theorem quoteValue_eq_null_iff (b : Database) (v : Value) :
    b.dialect.quoteValue v = "NULL" ↔ v.isNull = true := by
  rcases quoteValue_eq b with h | h <;> rw [h]
  · exact v.literal_eq_null_iff
  · exact v.serverLiteral_eq_null_iff

/-- Between quotes all databases write alike. -/
theorem quoteValue_of_isQuoted (b : Database) {x : Scalar} (h : x.kind.isQuoted = true) :
    b.dialect.quoteValue (.scalar x) = literal (.scalar x) := by
  rcases quoteValue_eq b with hb | hb <;> rw [hb]
  rw [Dialect.serverLiteral.eq_def]
  split
  · next hx => cases hx; cases h
  · next hx => cases hx; cases h
  · rfl

/-- **A literal between quotes says itself where it ends.** -/
theorem literal_append_inj {x y : Scalar} (hx : x.kind.isQuoted = true)
    (hy : y.kind.isQuoted = true) {r r' : String} (hr : r.toList.head? ≠ some '\'')
    (hr' : r'.toList.head? ≠ some '\'')
    (h : literal (.scalar x) ++ r = literal (.scalar y) ++ r') :
    literal (.scalar x) = literal (.scalar y) ∧ r = r' := by
  obtain ⟨t, ht⟩ := Scalar.exists_inside? hx
  obtain ⟨u, hu⟩ := Scalar.exists_inside? hy
  rw [literal, literal, Scalar.literal_of_inside? ht, Scalar.literal_of_inside? hu] at h ⊢
  obtain ⟨rfl, hrest⟩ := Text.quote_append_inj _ _ hr hr' h
  exact ⟨rfl, hrest⟩

/-- **Literals are closed, and NULL is nothing else.**  A value is written `NULL` exactly if it is
NULL, in every database.  What is written between quotes is alike in all of them; quotes stand in
pairs inside, and a reader that takes off the outer ones and undoes the pairs has the text again.
So where such a literal begins a text, it is seen where it ends. -/
theorem literals_closed :
    (∀ v : Value, (v.literal = "NULL" ↔ v.isNull = true) ∧
      ∀ b : Database, b.dialect.quoteValue v = "NULL" ↔ v.isNull = true) ∧
    (∀ x : Scalar, x.kind.isQuoted = true →
      (∀ b : Database, b.dialect.quoteValue (.scalar x) = literal (.scalar x)) ∧
      (∃ body, (literal (.scalar x)).toList = '\'' :: (body ++ ['\'']) ∧
        Text.Paired '\'' body) ∧
      ∃ t, x.inside? = some t ∧ Text.unquote? '\'' '\'' (literal (.scalar x)) = some t) ∧
    ∀ x y : Scalar, x.kind.isQuoted = true → y.kind.isQuoted = true → ∀ r r' : String,
      r.toList.head? ≠ some '\'' → r'.toList.head? ≠ some '\'' →
      literal (.scalar x) ++ r = literal (.scalar y) ++ r' →
      literal (.scalar x) = literal (.scalar y) ∧ r = r' := by
  refine ⟨fun v => ⟨v.literal_eq_null_iff, fun b => quoteValue_eq_null_iff b v⟩, fun x hx => ?_,
    fun x y hx hy r r' hr hr' => literal_append_inj hx hy hr hr'⟩
  obtain ⟨t, ht⟩ := Scalar.exists_inside? hx
  have hliteral : literal (.scalar x) = quoteText t := Scalar.literal_of_inside? ht
  refine ⟨fun b => quoteValue_of_isQuoted b hx, ⟨Text.double '\'' t.toList, ?_,
    Text.paired_double _ _⟩, t, ht, ?_⟩
  · rw [hliteral, quoteText, Text.toList_quote]
  · rw [hliteral, quoteText, Text.unquote?_quote]

/-- A text that ends in a quote, the name of NULL, and the character that is a quote. -/
theorem quotes_closed :
    literal (.scalar (.text "it's'")) = "'it''s'''" ∧
    Text.unquote? '\'' '\'' "'it''s'''" = some "it's'" ∧
    Dialect.sqlserver.quoteValue (.scalar (.text "NULL")) ≠ "NULL" ∧
    Dialect.sqlserver.quoteValue (.null .bool) = "NULL" ∧
    ∀ y : Scalar, y.kind.isQuoted = true → ∀ r : String, r.toList.head? ≠ some '\'' →
      literal (.scalar (.char '\'')) ++ ", 1" = literal (.scalar y) ++ r →
      literal (.scalar (.char '\'')) = literal (.scalar y) ∧ ", 1" = r := by
  obtain ⟨hnull, hclosed, hends⟩ := literals_closed
  have htext : literal (.scalar (.text "it's'")) = "'it''s'''" := by decide +kernel
  obtain ⟨-, -, t, ht, hread⟩ := hclosed (.text "it's'") rfl
  cases ht
  have hname : Dialect.sqlserver.quoteValue (.scalar (.text "NULL")) ≠ "NULL" := fun h =>
    absurd (((hnull (.scalar (.text "NULL"))).2 .sqlserver).mp h) (by decide)
  have hbool : Dialect.sqlserver.quoteValue (.null .bool) = "NULL" :=
    ((hnull (.null .bool)).2 .sqlserver).mpr rfl
  exact ⟨htext, htext ▸ hread, hname, hbool,
    fun y hy r hr => hends (.char '\'') y rfl hy ", 1" r (by decide) hr⟩

end Value

end SelectQuery
