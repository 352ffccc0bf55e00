import SelectQuery.Toml.Printer
import SelectQuery.Toml.Quoted

/-!
# Proofs/Strings — a string is read back in whatever form it is written

The printer chooses among four forms of a string, and the reader tells them apart by their quotes.
`Toml.readText_quoted` says that what is written is read back, whatever the string is made of, and
that reading stops right behind it.

An escape reads as the character that it stands for (`basic_escaped`), which settles control
characters, backslashes and tabs.  The quotes of a triple form are settled by what is in front of
the closing: a quote ends the string if two more follow, and then up to two of the three belong to
it.  The printer leaves no three quotes in a row, so whichever way a quote is taken the same string
comes out (`ending?_or`), and the triple forms go by induction on the string.
-/

namespace SelectQuery

namespace Text

/-! ## Hexadecimal digits -/

/-- A number below 256 is read back from its two digits. -/
theorem hexNumber?_pair {n : Nat} (h : n < 256) :
    hexNumber? ['0', '0', upperHexDigit (n / 16), upperHexDigit (n % 16)] = some n := by
  have hzero : hexDigit? '0' = some 0 := by decide
  have hhigh : hexDigit? (upperHexDigit (n / 16)) = some (n / 16) :=
    hexDigit?_upperHexDigit _ (by omega)
  have hlow : hexDigit? (upperHexDigit (n % 16)) = some (n % 16) :=
    hexDigit?_upperHexDigit _ (by omega)
  simp only [hexNumber?, List.foldlM_cons, List.foldlM_nil, hzero, hhigh, hlow, Option.map_some,
    Option.bind_eq_bind, Option.bind_some, pure, Option.some.injEq]
  omega

/-- A number below 256 as a byte, in two digits. -/
theorem hexOf_ofNat (digit : Nat → Char) {n : Nat} (h : n < 256) :
    hexOf digit [UInt8.ofNat n] = [digit (n / 16), digit (n % 16)] := by
  have hbyte : (UInt8.ofNat n).toNat = n := UInt8.toNat_ofNat_of_lt' h
  rw [hexOf, List.flatMap_singleton, hbyte]

end Text

namespace Toml

variable {triple : Bool} {c : Char} {cs rest : List Char}

/-! ## Between double quotes, one character at a time -/

/-- A plain character stands for itself. -/
theorem basic_plain (hplain : isPlain c = true) (hquote : c ≠ '"') (hslash : c ≠ '\\') :
    basic triple .no (c :: rest) = before c (basic triple .no rest) := by
  rw [basic.eq_def]
  simp [hplain, hquote, hslash]

/-- So does a line break, between three quotes. -/
theorem basic_newline : basic true .no ('\n' :: rest) = before '\n' (basic true .no rest) := by
  rw [basic.eq_def]
  simp [startsBreak]

/-- A quote ends the string or belongs to it. -/
theorem basic_quote :
    basic triple .no ('"' :: rest) =
      (ending? '"' triple rest).or (before '"' (basic triple .no rest)) := by
  rw [basic.eq_def]
  cases h : ending? '"' triple rest <;> simp [h]

/-- The character of a code below 256 is read back from its digits. -/
theorem ofCode?_upperHex (h : c.toNat < 256) :
    ofCode? ('0' :: '0' :: Text.hexOf Text.upperHexDigit [UInt8.ofNat c.toNat]) = some c := by
  have hchar : c.toNat.isValidChar := c.valid
  rw [Text.hexOf_ofNat _ h, ofCode?, Text.hexNumber?_pair h]
  simp [hchar, Char.ofNat_toNat]

/-- A letter behind a backslash is read as what it stands for. -/
theorem basic_letter {e : Char} (hx : e ≠ 'x') (hu : e ≠ 'u') (hU : e ≠ 'U')
    (h : unescape? e = some c) :
    basic triple .no ('\\' :: e :: rest) = before c (basic triple .no rest) := by
  rw [basic.eq_def]
  simp [hx, hu, hU, h]

/-- **An escape reads as the character it stands for.** -/
theorem basic_escaped (h : c.toNat < 256) :
    basic triple .no (escaped c ++ rest) = before c (basic triple .no rest) := by
  rw [escaped.eq_def]
  split
  case h_8 =>
    have hcode := ofCode?_upperHex h
    rw [Text.hexOf_ofNat _ h] at hcode ⊢
    rw [basic.eq_def]
    simp only [reduceCtorEq, List.cons_append, List.nil_append, hcode]
    rfl
  all_goals exact basic_letter (by decide) (by decide) (by decide) rfl

/-! ## Strings between double quotes -/

theorem toNat_lt_of_needsEscape (h : needsEscape c = true) : c.toNat < 256 := by
  simp only [needsEscape, Bool.or_eq_true, Bool.and_eq_true, decide_eq_true_eq, beq_iff_eq] at h
  rcases h with ⟨⟨h, -⟩, -⟩ | rfl
  · omega
  · decide

/-- A character that needs no escape stands for itself, or is a line break. -/
theorem isPlain_of_needsEscape (h : needsEscape c = false) : isPlain c = true ∨ c = '\n' := by
  by_cases htab : c = '\t'
  · exact .inl (by simp [isPlain, htab])
  · by_cases hbreak : c = '\n'
    · exact .inr hbreak
    · have hdelete : c.toNat ≠ 0x7F := fun e => by
        have : c = '\x7F' := Char.toNat_inj.mp e
        simp [needsEscape, this] at h
      simp [needsEscape, htab, hbreak] at h
      exact .inl (by simp [isPlain, hdelete, h.1])

/-- **A string of one line between double quotes is read back.** -/
theorem basic_oneLine (cs rest : List Char) :
    basic false .no (oneLine cs ++ '"' :: rest) = some (cs, rest) := by
  induction cs with
  | nil => exact basic_quote
  | cons c cs ih =>
    rw [oneLine, List.flatMap_cons, ← oneLine, List.append_assoc]
    split
    · next hspecial =>
      have hcode : c.toNat < 256 := by
        simp only [Bool.or_eq_true, beq_iff_eq] at hspecial
        rcases hspecial with (((h | rfl) | rfl) | rfl) | rfl
        · exact toNat_lt_of_needsEscape h
        all_goals decide
      rw [basic_escaped hcode, ih]
      rfl
    · next hspecial =>
      simp only [Bool.or_eq_true, not_or, Bool.not_eq_true, beq_iff_eq] at hspecial
      obtain ⟨⟨⟨⟨hclean, -⟩, hbreak⟩, hquote⟩, hslash⟩ := hspecial
      have hplain := (isPlain_of_needsEscape hclean).resolve_right hbreak
      rw [List.singleton_append, basic_plain hplain hquote hslash, ih]
      rfl

/-! ## Quotes in a triple form -/

variable {quote : Char}

/-- Two more quotes do not follow. -/
theorem ending?_eq_none (h : ∀ more, rest ≠ quote :: quote :: more) :
    ending? quote true rest = none := by
  rcases rest with _ | ⟨a, _ | ⟨b, more⟩⟩
  · rfl
  · rfl
  · have hne : ¬(a = quote ∧ b = quote) := by
      rintro ⟨rfl, rfl⟩
      exact h more rfl
    simp [ending?, hne]

/-- Two more quotes follow, and with them come those that belong to the string. -/
theorem ending?_close :
    ending? quote true (quote :: quote :: rest) = some (closing quote rest) := by
  simp [ending?]

theorem closing_zero (h : rest.head? ≠ some quote) : closing quote rest = ([], rest) := by
  rcases rest with _ | ⟨a, _ | ⟨b, more⟩⟩
  · rfl
  all_goals
    have ha : a ≠ quote := fun e => h (by simp [e])
    simp [closing, ha]

theorem closing_one (h : rest.head? ≠ some quote) :
    closing quote (quote :: rest) = ([quote], rest) := by
  rcases rest with _ | ⟨b, more⟩
  · simp [closing]
  · have hb : b ≠ quote := fun e => h (by simp [e])
    simp [closing, hb]

theorem closing_two : closing quote (quote :: quote :: rest) = ([quote, quote], rest) := by
  simp [closing]

/-- **A quote in front of a closing.**  If the text `t` between them stands for `cs`, all of it is
read, be it by the quotes that the closing takes along. -/
theorem ending?_or {t : List Char} (hrest : rest.head? ≠ some quote)
    (hthree : ∀ more, t ≠ quote :: quote :: more) (hnil : t = [] → cs = [])
    (hone : t = [quote] → cs = [quote]) :
    (ending? quote true (t ++ quote :: quote :: quote :: rest)).or (some (quote :: cs, rest)) =
      some (quote :: cs, rest) := by
  by_cases ht : t = []
  · rw [ht, hnil ht, List.nil_append, ending?_close, closing_one hrest]
    rfl
  · by_cases ht' : t = [quote]
    · rw [ht', hone ht', List.singleton_append, ending?_close, closing_two]
      rfl
    · rw [ending?_eq_none]
      · rfl
      · rintro more he
        rcases t with _ | ⟨a, _ | ⟨b, t⟩⟩
        · exact ht rfl
        · exact ht' (by rw [(List.cons.inj he).1])
        · obtain ⟨rfl, he⟩ := List.cons.inj he
          exact hthree t (by rw [(List.cons.inj he).1])

/-! ## Strings between triple double quotes -/

/-- What is escaped begins with a backslash. -/
theorem exists_escaped (c : Char) : ∃ t, escaped c = '\\' :: t := by
  rw [escaped.eq_def]
  split <;> exact ⟨_, rfl⟩

theorem manyLines_eq_nil {run : Nat} (h : manyLines run cs = []) : cs = [] := by
  cases cs with
  | nil => rfl
  | cons c cs =>
    obtain ⟨t, ht⟩ := exists_escaped c
    rw [manyLines] at h
    split at h
    · split at h <;> simp [ht] at h
    · split at h <;> simp [ht] at h

/-- A quote at the front has been written as it is, so it is one of two at most. -/
theorem manyLines_eq_cons {run : Nat} {t : List Char} (h : manyLines run cs = '"' :: t) :
    run < 2 ∧ ∃ cs', cs = '"' :: cs' ∧ t = manyLines (run + 1) cs' := by
  cases cs with
  | nil => simp [manyLines] at h
  | cons c cs =>
    obtain ⟨u, hu⟩ := exists_escaped c
    rw [manyLines] at h
    split at h
    · next hc =>
      split at h
      · next hrun => exact ⟨hrun, cs, by rw [hc], (List.cons.inj h).2.symm⟩
      · simp [hu] at h
    · next hc =>
      split at h
      · simp [hu] at h
      · exact absurd (List.cons.inj h).1 hc

/-- **A string between triple double quotes is read back.** -/
theorem basic_manyLines (run : Nat) (cs : List Char) (hrest : rest.head? ≠ some '"') :
    basic true .no (manyLines run cs ++ '"' :: '"' :: '"' :: rest) = some (cs, rest) := by
  induction cs generalizing run with
  | nil =>
    rw [manyLines, List.nil_append, basic_quote, ending?_close, closing_zero hrest]
    rfl
  | cons c cs ih =>
    rw [manyLines]
    split
    · next hc =>
      subst hc
      split
      · rw [List.cons_append, basic_quote, ih]
        refine ending?_or hrest (fun more h => ?_) manyLines_eq_nil fun h => ?_
        · obtain ⟨-, cs', -, ht⟩ := manyLines_eq_cons h
          have := (manyLines_eq_cons ht.symm).1
          omega
        · obtain ⟨-, cs', hcs, ht⟩ := manyLines_eq_cons h
          rw [hcs, manyLines_eq_nil ht.symm]
      · rw [List.append_assoc, basic_escaped (by decide), ih]
        rfl
    · next hquote =>
      split
      · next hspecial =>
        have hcode : c.toNat < 256 := by
          simp only [Bool.or_eq_true, beq_iff_eq] at hspecial
          rcases hspecial with (h | rfl) | rfl
          · exact toNat_lt_of_needsEscape h
          all_goals decide
        rw [List.append_assoc, basic_escaped hcode, ih]
        rfl
      · next hspecial =>
        simp only [Bool.or_eq_true, not_or, Bool.not_eq_true, beq_iff_eq] at hspecial
        obtain ⟨⟨hclean, -⟩, hslash⟩ := hspecial
        rw [List.cons_append]
        rcases isPlain_of_needsEscape hclean with hplain | rfl
        · rw [basic_plain hplain hquote hslash, ih]
          rfl
        · rw [basic_newline, ih]
          rfl

/-! ## Strings between single quotes -/

/-- Where nothing is escaped, too, a quote ends the string or belongs to it. -/
theorem literal_quote :
    literal triple ('\'' :: rest) =
      (ending? '\'' triple rest).or (before '\'' (literal triple rest)) := by
  rw [literal, if_pos rfl]
  cases ending? '\'' triple rest <;> rfl

/-- Every other plain character stands for itself. -/
theorem literal_plain (hplain : isPlain c = true) (hquote : c ≠ '\'') :
    literal triple (c :: rest) = before c (literal triple rest) := by
  rw [literal, if_neg hquote, hplain, Bool.true_or, if_pos rfl]

theorem literal_newline : literal true ('\n' :: rest) = before '\n' (literal true rest) := by
  rw [literal, if_neg (by decide)]
  simp [startsBreak]

/-- **A string of one line between single quotes is read back.** -/
theorem literal_line (hplain : ∀ c ∈ cs, isPlain c = true) (hquote : '\'' ∉ cs) :
    literal false (cs ++ '\'' :: rest) = some (cs, rest) := by
  induction cs with
  | nil => exact literal_quote
  | cons c cs ih =>
    obtain ⟨hc, hcs⟩ := List.forall_mem_cons.mp hplain
    rw [List.mem_cons, not_or] at hquote
    rw [List.cons_append, literal_plain hc (Ne.symm hquote.1), ih hcs hquote.2]
    rfl

theorem hasThree_cons (h : hasThree quote (c :: cs) = false) : hasThree quote cs = false := by
  rcases cs with _ | ⟨a, _ | ⟨b, cs⟩⟩
  · rfl
  · rfl
  · rw [hasThree, Bool.or_eq_false_iff] at h
    exact h.2

/-- **A string between triple single quotes is read back.** -/
theorem literal_lines (hclean : ∀ c ∈ cs, needsEscape c = false)
    (hthree : hasThree '\'' cs = false) (hrest : rest.head? ≠ some '\'') :
    literal true (cs ++ '\'' :: '\'' :: '\'' :: rest) = some (cs, rest) := by
  induction cs with
  | nil =>
    rw [List.nil_append, literal_quote, ending?_close, closing_zero hrest]
    rfl
  | cons c cs ih =>
    obtain ⟨hc, hcs⟩ := List.forall_mem_cons.mp hclean
    rw [List.cons_append]
    by_cases hquote : c = '\''
    · subst hquote
      rw [literal_quote, ih hcs (hasThree_cons hthree)]
      refine ending?_or hrest ?_ id id
      rintro more rfl
      simp [hasThree] at hthree
    · rcases isPlain_of_needsEscape hc with hplain | rfl
      · rw [literal_plain hplain hquote, ih hcs (hasThree_cons hthree)]
        rfl
      · rw [literal_newline, ih hcs (hasThree_cons hthree)]
        rfl

/-! ## Strings of any form -/

/-- A string that does not begin with three quotes is one of one line. -/
theorem readText_eq_readLine (h : ∀ quote more, cs ≠ quote :: quote :: quote :: more) :
    readText cs = readLine cs := by
  rw [readText.eq_def]
  split
  · exact absurd rfl (h _ _)
  · exact absurd rfl (h _ _)
  · rfl

/-- Behind the opening quote of a line there are not two more. -/
theorem oneLine_ne (hrest : rest.head? ≠ some '"') (more : List Char) :
    oneLine cs ++ '"' :: rest ≠ '"' :: '"' :: more := by
  intro h
  cases cs with
  | nil =>
    obtain ⟨-, h⟩ := List.cons.inj h
    exact hrest (by rw [h]; rfl)
  | cons c cs =>
    obtain ⟨t, ht⟩ := exists_escaped c
    rw [oneLine, List.flatMap_cons] at h
    split at h
    · simp [ht] at h
    · next hspecial => simp_all

/-- **A line between two quotes is read back**, whatever is in it. -/
theorem readText_basic (cs : List Char) (hrest : rest.head? ≠ some '"') :
    readText ('"' :: (oneLine cs ++ ['"']) ++ rest) = some (String.ofList cs, rest) := by
  rw [List.cons_append, List.append_assoc, List.singleton_append, readText_eq_readLine, readLine,
    basic_oneLine]
  · rfl
  · rintro quote more h
    obtain ⟨rfl, h⟩ := List.cons.inj h
    exact oneLine_ne hrest more h

/-- **So is one between two apostrophes**, if it is plain and has none in it. -/
theorem readText_literal (hplain : ∀ c ∈ cs, isPlain c = true) (hquote : '\'' ∉ cs)
    (hne : cs ≠ []) :
    readText ('\'' :: (cs ++ ['\'']) ++ rest) = some (String.ofList cs, rest) := by
  rw [List.cons_append, List.append_assoc, List.singleton_append, readText_eq_readLine, readLine,
    literal_line hplain hquote]
  · rfl
  · rintro quote more h
    obtain ⟨rfl, h⟩ := List.cons.inj h
    cases cs with
    | nil => exact hne rfl
    | cons c cs =>
      obtain ⟨rfl, -⟩ := List.cons.inj h
      exact hquote List.mem_cons_self

/-- The line break that a string of several lines is opened with. -/
def opening (cs : List Char) : List Char := if cs.contains '\n' then ['\n'] else []

/-- **Of the line breaks in front, the opening is dropped** and those of the string stay. -/
theorem dropBreak_opening {t : List Char} (hreturn : t.head? ≠ some '\r')
    (hbreak : t.head? = some '\n' → '\n' ∈ cs) : dropBreak (opening cs ++ t) = t := by
  rw [opening]
  split
  · rfl
  · next h =>
    have hfirst : t.head? ≠ some '\n' := fun e => h (List.contains_iff_mem.mpr (hbreak e))
    rw [List.nil_append, dropBreak.eq_def]
    split
    · exact absurd rfl hfirst
    · exact absurd rfl hreturn
    · rfl

/-- What triple double quotes begin with is an escape, a quote, or a character of the string. -/
theorem head?_manyLines {c : Char} (h : (manyLines 0 cs ++ '"' :: rest).head? = some c) :
    c = '\\' ∨ c = '"' ∨ c ∈ cs ∧ needsEscape c = false := by
  cases cs with
  | nil => exact .inr (.inl (Option.some.inj h).symm)
  | cons a cs =>
    obtain ⟨t, ht⟩ := exists_escaped a
    rw [manyLines] at h
    split at h
    · next ha => exact .inr (.inl (by simpa [ha] using h.symm))
    · split at h
      · exact .inl (by simpa [ht] using h.symm)
      · next hspecial =>
        obtain rfl : a = c := by simpa using h
        simp only [Bool.or_eq_true, not_or, Bool.not_eq_true] at hspecial
        exact .inr (.inr ⟨List.mem_cons_self, hspecial.1.1⟩)

/-- **Lines between triple quotes are read back**, whatever is in them. -/
theorem readText_basicLines (cs : List Char) (hrest : rest.head? ≠ some '"') :
    readText ("\"\"\"".toList ++ opening cs ++ manyLines 0 cs ++ "\"\"\"".toList ++ rest) =
      some (String.ofList cs, rest) := by
  have hdrop : dropBreak (opening cs ++ (manyLines 0 cs ++ '"' :: '"' :: '"' :: rest)) =
      manyLines 0 cs ++ '"' :: '"' :: '"' :: rest := by
    refine dropBreak_opening (fun h => ?_) fun h => ?_
    · rcases head?_manyLines h with h | h | ⟨-, h⟩ <;> revert h <;> decide
    · rcases head?_manyLines h with h | h | ⟨h, -⟩
      · cases h
      · cases h
      · exact h
  simp only [List.append_assoc]
  change (basic true .no
    (dropBreak (opening cs ++ (manyLines 0 cs ++ '"' :: '"' :: '"' :: rest)))).map _ = _
  rw [hdrop, basic_manyLines 0 cs hrest]
  rfl

/-- **So are lines between triple apostrophes**, if they are clean. -/
theorem readText_literalLines (hclean : ∀ c ∈ cs, needsEscape c = false)
    (hthree : hasThree '\'' cs = false) (hrest : rest.head? ≠ some '\'') :
    readText ("\'\'\'".toList ++ opening cs ++ cs ++ "\'\'\'".toList ++ rest) =
      some (String.ofList cs, rest) := by
  have hdrop : dropBreak (opening cs ++ (cs ++ '\'' :: '\'' :: '\'' :: rest)) =
      cs ++ '\'' :: '\'' :: '\'' :: rest := by
    cases cs with
    | nil => rfl
    | cons c cs =>
      refine dropBreak_opening (fun h => ?_) fun h => ?_
      · obtain rfl := Option.some.inj h
        exact absurd (hclean _ List.mem_cons_self) (by decide)
      · obtain rfl := Option.some.inj h
        exact List.mem_cons_self
  simp only [List.append_assoc]
  change (literal true
    (dropBreak (opening cs ++ (cs ++ '\'' :: '\'' :: '\'' :: rest)))).map _ = _
  rw [hdrop, literal_lines hclean hthree hrest]
  rfl

/-! ## Which form it is -/

/-- That form is taken of plain texts without an apostrophe only. -/
theorem formOf_literal (h : formOf cs = .literal) :
    (∀ c ∈ cs, isPlain c = true) ∧ '\'' ∉ cs ∧ cs ≠ [] := by
  have hne : cs ≠ [] := by
    rintro rfl
    revert h
    decide
  rw [formOf] at h
  split at h
  · cases h
  split at h
  · next hform =>
    simp only [Bool.and_eq_true, Bool.not_eq_true', List.any_eq_false, List.contains_eq_mem,
      decide_eq_false_iff_not, Bool.not_eq_true] at hform
    obtain ⟨⟨hclean, hquote⟩, hbreak⟩ := hform
    refine ⟨fun c hc => ?_, hquote, hne⟩
    exact (isPlain_of_needsEscape (hclean c hc)).resolve_right fun e => hbreak (e ▸ hc)
  repeat' split at h
  all_goals cases h

theorem formOf_literalLines (h : formOf cs = .literalLines) :
    (∀ c ∈ cs, needsEscape c = false) ∧ hasThree '\'' cs = false := by
  rw [formOf] at h
  split at h
  · cases h
  split at h
  · cases h
  split at h
  · cases h
  split at h
  · next hform => simpa using hform
  · split at h <;> cases h

/-- **What is written is read back**, whatever the string is made of, and reading stops behind
it. -/
theorem readText_quoted (cs : List Char) (hdouble : rest.head? ≠ some '"')
    (hsingle : rest.head? ≠ some '\'') :
    readText (quoted cs ++ rest) = some (String.ofList cs, rest) := by
  rw [quoted]
  cases h : formOf cs with
  | basic => exact readText_basic cs hdouble
  | literal =>
    obtain ⟨hplain, hquote, hne⟩ := formOf_literal h
    exact readText_literal hplain hquote hne
  | basicLines => exact readText_basicLines cs hdouble
  | literalLines =>
    obtain ⟨hclean, hthree⟩ := formOf_literalLines h
    exact readText_literalLines hclean hthree hsingle

end Toml

end SelectQuery
