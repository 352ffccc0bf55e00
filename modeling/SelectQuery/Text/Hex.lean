/-!
# Text/Hex — bytes as hexadecimal digits

Two digits a byte, high half first, in upper or in lower case.
-/

namespace SelectQuery.Text

/-- The upper-case digit of a number below sixteen. -/
def upperHexDigit (n : Nat) : Char := if n < 10 then Char.ofNat (48 + n) else Char.ofNat (55 + n)

/-- The lower-case digit of a number below sixteen. -/
def lowerHexDigit (n : Nat) : Char := if n < 10 then Char.ofNat (48 + n) else Char.ofNat (87 + n)

/-- The number that a digit of either case stands for. -/
def hexDigit? (c : Char) : Option Nat :=
  if '0' ≤ c ∧ c ≤ '9' then some (c.toNat - 48)
  else if 'A' ≤ c ∧ c ≤ 'F' then some (c.toNat - 55)
  else if 'a' ≤ c ∧ c ≤ 'f' then some (c.toNat - 87)
  else none

/-- The number that a digit string stands for in base sixteen; the empty string stands for zero. -/
def hexNumber? (cs : List Char) : Option Nat :=
  cs.foldlM (fun n c => (hexDigit? c).map (16 * n + ·)) 0

/-- Two digits for each byte. -/
def hexOf (digit : Nat → Char) (bytes : List UInt8) : List Char :=
  bytes.flatMap fun b => [digit (b.toNat / 16), digit (b.toNat % 16)]

/-- Bytes in upper-case digits. -/
def upperHex (bytes : List UInt8) : List Char := hexOf upperHexDigit bytes

/-- Bytes in lower-case digits. -/
def lowerHex (bytes : List UInt8) : List Char := hexOf lowerHexDigit bytes

/-- The bytes that pairs of digits stand for. -/
def bytesOfHex? : List Char → Option (List UInt8)
  | [] => some []
  | [_] => none
  | a :: b :: cs => do
    let high ← hexDigit? a
    let low ← hexDigit? b
    let rest ← bytesOfHex? cs
    return UInt8.ofNat (16 * high + low) :: rest

/-! ## Digits are read back -/

theorem hexDigit?_upperHexDigit : ∀ n < 16, hexDigit? (upperHexDigit n) = some n := by decide

theorem hexDigit?_lowerHexDigit : ∀ n < 16, hexDigit? (lowerHexDigit n) = some n := by decide

/-- **Bytes are read back from their digits**, in either case. -/
theorem bytesOfHex?_hexOf {digit : Nat → Char} (hdigit : ∀ n < 16, hexDigit? (digit n) = some n)
    (bytes : List UInt8) : bytesOfHex? (hexOf digit bytes) = some bytes := by
  induction bytes with
  | nil => rfl
  | cons b bytes ih =>
    have hb : b.toNat < 256 := b.toNat_lt
    have hbyte : UInt8.ofNat (16 * (b.toNat / 16) + b.toNat % 16) = b := by
      rw [Nat.div_add_mod, UInt8.ofNat_toNat]
    have hpair : hexOf digit (b :: bytes) =
        digit (b.toNat / 16) :: digit (b.toNat % 16) :: hexOf digit bytes := rfl
    rw [hpair, bytesOfHex?, hdigit _ (by omega), hdigit _ (by omega), ih]
    exact congrArg (fun b => some (b :: bytes)) hbyte

/-- No two strings of bytes have the same digits. -/
theorem hexOf_inj {digit : Nat → Char} (hdigit : ∀ n < 16, hexDigit? (digit n) = some n)
    {bs cs : List UInt8} (h : hexOf digit bs = hexOf digit cs) : bs = cs := by
  have hread := bytesOfHex?_hexOf hdigit bs
  rw [h, bytesOfHex?_hexOf hdigit cs] at hread
  exact (Option.some.inj hread).symm

end SelectQuery.Text
