/-!
# Text/Blank — white space and trimming

White space is the Unicode property `White_Space`, twenty-five characters in ten ranges. `trim`
removes it from both ends and leaves the inside of a text alone: names and keywords typed by hand
are looked up trimmed.
-/

namespace SelectQuery.Text

/-- The closed ranges of the property `White_Space`, ascending and apart. -/
def blankRanges : List (Nat × Nat) :=
  [(0x09, 0x0D), (0x20, 0x20), (0x85, 0x85), (0xA0, 0xA0), (0x1680, 0x1680), (0x2000, 0x200A),
    (0x2028, 0x2029), (0x202F, 0x202F), (0x205F, 0x205F), (0x3000, 0x3000)]

/-- A character is blank if its code point lies in one of the ranges. -/
def isBlank (c : Char) : Bool :=
  blankRanges.any fun r => r.1 ≤ c.toNat && c.toNat ≤ r.2

/-- The ranges hold twenty-five characters. -/
example : (blankRanges.map fun r => r.2 + 1 - r.1).sum = 25 := by decide

/-- Separators of files and records, and the joiner of width zero, are not blank. -/
example : isBlank '\x1c' = false ∧ isBlank '\u200b' = false ∧ isBlank '\u2003' = true := by decide

/-- Drops blank characters from the end. -/
def trimEnd (cs : List Char) : List Char := (cs.reverse.dropWhile isBlank).reverse

/-- Drops blank characters from both ends. -/
def trim (s : String) : String := String.ofList (trimEnd (s.toList.dropWhile isBlank))

/-- Trims and lowers the twenty-six letters of ASCII; no other letter has a case here. -/
def folded (s : String) : String := (trim s).toLower

end SelectQuery.Text
