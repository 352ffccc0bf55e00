import SelectQuery.Calendar
import SelectQuery.Number.Notation

/-!
# Proofs/Digits — what numbers are written with

A number is written with the ten digits, and apart from them with a sign in front and a point at
most.  So a character that is none of these is not in the text of any number: where texts end at
such a character, or are told apart by one, numbers are never in the way.
-/

namespace SelectQuery

variable {c : Char}

theorem isDigit_toDigits (n : Nat) : ∀ c ∈ Nat.toDigits 10 n, c.isDigit = true :=
  fun _ hc => Nat.isDigit_of_mem_toDigits (by decide) (by decide) hc

/-- Only digits are among decimal digits. -/
theorem notMem_toDigits (hc : c.isDigit = false) (n : Nat) : c ∉ Nat.toDigits 10 n := fun hmem => by
  rw [isDigit_toDigits n c hmem] at hc
  cases hc

/-- Zeros in front are digits too. -/
theorem isDigit_padded (width n : Nat) : ∀ c ∈ padded width n, c.isDigit = true := by
  intro c hc
  rw [padded, List.leftpad, List.mem_append, List.mem_replicate] at hc
  rcases hc with ⟨-, rfl⟩ | hc
  · rfl
  · exact isDigit_toDigits n c hc

theorem notMem_padded (hc : c.isDigit = false) (width n : Nat) : c ∉ padded width n := fun hmem => by
  rw [isDigit_padded width n c hmem] at hc
  cases hc

theorem notMem_toString_nat (hc : c.isDigit = false) (n : Nat) : c ∉ (toString n).toList := by
  rw [Nat.toString_eq_repr, Nat.toList_repr]
  exact notMem_toDigits hc n

/-- An integer has a sign besides its digits, if it is negative. -/
theorem notMem_toString_int (hc : c.isDigit = false) (hsign : c ≠ '-') (n : Int) :
    c ∉ (toString n).toList := by
  cases n with
  | ofNat n => exact notMem_toString_nat hc n
  | negSucc n =>
    have htext : toString (Int.negSucc n) = "-" ++ toString (n + 1) := rfl
    rw [htext, String.toList_append, List.mem_append, not_or]
    exact ⟨by simpa using hsign, notMem_toString_nat hc (n + 1)⟩

/-- **A decimal in place is written with digits and a point.** -/
theorem Number.Decimal.notMem_positional (hc : c.isDigit = false) (hpoint : c ≠ '.') (d : Decimal) :
    c ∉ d.positional := by
  have hdigits : c ∉ d.digitChars := notMem_toDigits hc d.digits
  have htake (n : Nat) : c ∉ d.digitChars.take n := fun h => hdigits (List.mem_of_mem_take h)
  have hdrop (n : Nat) : c ∉ d.digitChars.drop n := fun h => hdigits (List.mem_of_mem_drop h)
  have hzero : c ≠ '0' := by
    rintro rfl
    cases hc
  rw [positional]
  split
  · simp [hdigits, hzero]
  · split
    · simp [htake, hdrop, hpoint]
    · simp [hdigits, hzero, hpoint]

end SelectQuery
