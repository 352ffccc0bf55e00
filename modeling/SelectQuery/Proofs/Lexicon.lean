import SelectQuery.Proofs.Digits
import SelectQuery.Proofs.Piece

/-!
# Proofs/Lexicon — a text back into tokens

A **lexicon** says what a reader of SQL has to know of a dialect: the quotes around names and how a
placeholder begins.  `Lexicon.lex` reads a text from left to right.  A quoted name ends at the first
closing quote that is not doubled; a placeholder takes every digit behind it; letters and signs
stand together as long as they go on; anything else but a blank is a word by itself.  Reading fails
only inside a name that is never closed.

`Lexicon.lex_spell` is the converse of `spell`: pieces that are **well spaced**, so that no two of
them run together, are read back one by one, whatever characters the names are made of.
-/

namespace SelectQuery

namespace Lexicon

/-- The characters of words and numbers. -/
def isLetter (c : Char) : Bool := c.isAlphanum || c == '_'

/-- The characters of comparisons. -/
def isSign (c : Char) : Bool := c == '=' || c == '<' || c == '>' || c == '!'

/-- The characters that stand by themselves. -/
def isPoint (c : Char) : Bool :=
  c == '(' || c == ')' || c == ',' || c == '.' || c == '*' || c == '-'

/-- A blank, or a character that stands by itself: nothing runs on into it. -/
def isApart (c : Char) : Bool := c == ' ' || isPoint c

/-- The characters of which a dialect may make quotes and placeholders. -/
def isFree (c : Char) : Bool := !(isApart c || isLetter c || isSign c)

/-- The characters that go on with a word that begins with `c`. -/
def goesOn (c : Char) : Char → Bool :=
  if isLetter c then isLetter else if isSign c then isSign else fun _ => false

/-- What is quoted up to the first closing quote that is not doubled, and what is behind it. -/
def readName (close : Char) : List Char → Option (List Char × List Char)
  | [] => none
  | c :: cs =>
    if c = close then
      match cs with
      | [] => some ([], [])
      | d :: ds =>
        if d = close then (readName close ds).map fun (s, rest) => (close :: s, rest)
        else some ([], d :: ds)
    else (readName close cs).map fun (s, rest) => (c :: s, rest)

theorem readName_of_ne {close c : Char} (h : c ≠ close) (cs : List Char) :
    readName close (c :: cs) = (readName close cs).map fun (s, rest) => (c :: s, rest) := by
  cases cs <;> simp [readName, h]

/-- What is behind a quoted name is no longer than what it is read from. -/
theorem length_readName (close : Char) :
    ∀ {cs s rest : List Char}, readName close cs = some (s, rest) → rest.length ≤ cs.length
  | [], _, _, h => by simp [readName] at h
  | [c], _, _, h => by
      rw [readName] at h
      split at h
      · cases h; simp
      · simp [readName] at h
  | c :: d :: ds, s, rest, h => by
      rw [readName] at h
      split at h
      · split at h
        · obtain ⟨⟨s', rest'⟩, h', he⟩ := Option.map_eq_some_iff.mp h
          have := length_readName close h'
          cases he
          simp only [List.length_cons]
          omega
        · cases h
          simp
      · obtain ⟨⟨s', rest'⟩, h', he⟩ := Option.map_eq_some_iff.mp h
        have := length_readName close h'
        cases he
        simp only [List.length_cons] at this ⊢
        omega

/-- **A quoted name ends where its quotation does**, unless another quote follows. -/
theorem readName_double (close : Char) (s : List Char) {rest : List Char}
    (h : rest.head? ≠ some close) :
    readName close (Text.double close s ++ close :: rest) = some (s, rest) := by
  induction s with
  | nil =>
    cases rest with
    | nil => simp [Text.double, readName]
    | cons d ds =>
      have hd : d ≠ close := fun e => h (by simp [e])
      simp [Text.double, readName, hd]
  | cons c s ih =>
    by_cases hc : c = close
    · simp [Text.double, readName, hc, ih]
    · simp [Text.double, hc, readName_of_ne hc, ih]

/-- A run of characters of one kind ends where something else begins. -/
theorem takeWhile_run {p : Char → Bool} {run rest : List Char} (hrun : ∀ c ∈ run, p c = true)
    (hrest : ∀ c, rest.head? = some c → p c = false) : (run ++ rest).takeWhile p = run := by
  rw [List.takeWhile_append_of_pos hrun]
  cases rest with
  | nil => simp
  | cons c cs => simp [hrest c rfl]

end Lexicon

open Lexicon in
/-- What a reader has to know of a dialect. -/
structure Lexicon where
  opening : Char
  closing : Char
  /-- The character with which placeholders begin. -/
  sigil : Char
  /-- What stands behind the sigil. -/
  sigilRest : List Char
  /-- A placeholder has a number. -/
  numbered : Bool
  opening_free : isFree opening = true := by decide
  closing_free : isFree closing = true := by decide
  sigil_free : isFree sigil = true := by decide
  blank_notMem : ' ' ∉ sigilRest := by decide
  opening_ne_sigil : opening ≠ sigil := by decide

namespace Lexicon

/-- The token at the front of a text, or none for a blank, and the text behind it. -/
def first (L : Lexicon) (c : Char) (cs : List Char) : Option (Option (Token String) × List Char) :=
  if c = ' ' then some (none, cs)
  else if c = L.opening then
    (readName L.closing cs).map fun (s, rest) => (some (.name (String.ofList s)), rest)
  else if c = L.sigil ∧ L.sigilRest.isPrefixOf cs then
    let rest := cs.drop L.sigilRest.length
    let digits := if L.numbered then rest.takeWhile Char.isDigit else []
    some (some (.mark (String.ofList (c :: (L.sigilRest ++ digits)))), rest.drop digits.length)
  else
    let run := cs.takeWhile (goesOn c)
    some (some (.word (String.ofList (c :: run))), cs.drop run.length)

/-- What is behind a token is no longer than what the token is read from. -/
theorem length_first {L : Lexicon} {c : Char} {cs rest : List Char} {t : Option (Token String)}
    (h : L.first c cs = some (t, rest)) : rest.length ≤ cs.length := by
  rw [first] at h
  split at h
  · cases h
    exact Nat.le_refl _
  · split at h
    · obtain ⟨⟨s, rest'⟩, h', he⟩ := Option.map_eq_some_iff.mp h
      cases he
      exact length_readName _ h'
    · split at h <;> cases h <;> simp only [List.length_drop] <;> omega

/-- The tokens of a text; none if a name is never closed. -/
def lex (L : Lexicon) : List Char → Option (List (Token String))
  | [] => some []
  | c :: cs =>
    match _h : L.first c cs with
    | none => none
    | some (t, rest) => (lex L rest).map (t.toList ++ ·)
termination_by cs => cs.length
decreasing_by exact Nat.lt_succ_of_le (length_first _h)

/-- The token at the front comes before the tokens of the rest. -/
theorem lex_cons {L : Lexicon} {c : Char} {cs rest : List Char} {t : Option (Token String)}
    (h : L.first c cs = some (t, rest)) : L.lex (c :: cs) = (L.lex rest).map (t.toList ++ ·) := by
  rw [lex]
  split
  · next h' => rw [h] at h'; cases h'
  · next h' => rw [h] at h'; cases h'; rfl

end Lexicon

/-! ## Pieces that do not run together -/

namespace Piece

/-- Nothing runs on into the piece. -/
def isApart : Piece → Bool
  | blank => true
  | word s => s.toList.all Lexicon.isPoint
  | name _ | mark _ => false

/-- A word is read as one word. -/
def isClean : Piece → Bool
  | word s =>
    match s.toList with
    | [] => false
    | c :: run => c != ' ' && !Lexicon.isFree c && run.all (Lexicon.goesOn c)
  | blank | name _ | mark _ => true

end Piece

/-- Nothing runs on into the first of the pieces. -/
def startsApart : List Piece → Bool
  | [] => true
  | p :: _ => p.isApart

/-- **Of two neighbours one at least stands apart**, so that no two pieces run together. -/
def wellSpaced : List Piece → Bool
  | [] => true
  | p :: ps => p.isClean && (p.isApart || startsApart ps) && wellSpaced ps

namespace Lexicon

/-- A dialect that writes names and placeholders as a lexicon says. -/
structure Describes (L : Lexicon) (d : Dialect) : Prop where
  quoteName : d.quoteName = Text.quote L.opening L.closing
  placeholder (k : Nat) : (d.placeholder k).toList =
    L.sigil :: (L.sigilRest ++ if L.numbered then Nat.toDigits 10 k else [])

variable {L : Lexicon} {d : Dialect}

/-- No dialect makes quotes of what stands by itself. -/
theorem not_isFree_of_isApart {c : Char} (h : isApart c = true) : isFree c = false := by
  simp [isFree, h]

theorem isLetter_of_isDigit {c : Char} (h : c.isDigit = true) : isLetter c = true := by
  simp [isLetter, Char.isAlphanum, h]

theorem isApart_cases {c : Char} (h : isApart c = true) :
    isLetter c = false ∧ isSign c = false ∧ c.isDigit = false := by
  have hc : c = ' ' ∨ c = '(' ∨ c = ')' ∨ c = ',' ∨ c = '.' ∨ c = '*' ∨ c = '-' := by
    simpa [isApart, isPoint, or_assoc] using h
  rcases hc with rfl | rfl | rfl | rfl | rfl | rfl | rfl <;> decide

/-- No word goes on into a character that stands apart. -/
theorem goesOn_of_isApart (c : Char) {x : Char} (h : isApart x = true) : goesOn c x = false := by
  obtain ⟨hl, hs, -⟩ := isApart_cases h
  rw [goesOn]
  split
  · exact hl
  · split
    · exact hs
    · rfl

/-- A character that stands by itself goes on into nothing. -/
theorem goesOn_of_isPoint {c : Char} (h : isPoint c = true) : goesOn c = fun _ => false := by
  obtain ⟨hl, hs, -⟩ := isApart_cases (c := c) (by simp [isApart, h])
  rw [goesOn, if_neg (by simp [hl]), if_neg (by simp [hs])]

/-! ## Reading one token -/

/-- Nothing goes on into the text. -/
def Breaks (cs : List Char) : Prop := ∀ c, cs.head? = some c → isApart c = true

theorem ne_of_isFree {c f : Char} (hf : isFree f = true) (hc : isFree c = false) : c ≠ f := by
  rintro rfl
  rw [hf] at hc
  cases hc

/-- A blank is passed over. -/
theorem first_blank (L : Lexicon) (cs : List Char) : L.first ' ' cs = some (none, cs) := by
  rw [first, if_pos rfl]

/-- **A quoted name is one token**, whatever characters are in it. -/
theorem first_name (L : Lexicon) (s : List Char) {rest : List Char} (h : Breaks rest) :
    L.first L.opening (Text.double L.closing s ++ L.closing :: rest) =
      some (some (.name (String.ofList s)), rest) := by
  have hblank : L.opening ≠ ' ' := (ne_of_isFree L.opening_free (by decide)).symm
  have hclose : rest.head? ≠ some L.closing := fun e => by
    have := not_isFree_of_isApart (h L.closing e)
    rw [L.closing_free] at this
    cases this
  rw [first, if_neg hblank, if_pos rfl, readName_double _ _ hclose]
  rfl

/-- **A placeholder is one token**, up to its last digit. -/
theorem first_mark (L : Lexicon) {digits rest : List Char} (hd : ∀ c ∈ digits, c.isDigit = true)
    (hn : L.numbered = false → digits = []) (h : Breaks rest) :
    L.first L.sigil (L.sigilRest ++ digits ++ rest) =
      some (some (.mark (String.ofList (L.sigil :: (L.sigilRest ++ digits)))), rest) := by
  have hblank : L.sigil ≠ ' ' := (ne_of_isFree L.sigil_free (by decide)).symm
  have hdigits : (if L.numbered then (digits ++ rest).takeWhile Char.isDigit else []) = digits := by
    split
    · exact takeWhile_run hd fun c e => (isApart_cases (h c e)).2.2
    · next hnum => exact (hn (by simpa using hnum)).symm
  have hprefix : L.sigilRest.isPrefixOf (L.sigilRest ++ (digits ++ rest)) = true :=
    List.isPrefixOf_iff_prefix.mpr (List.prefix_append _ _)
  rw [first, if_neg hblank, if_neg L.opening_ne_sigil.symm, List.append_assoc,
    if_pos ⟨rfl, hprefix⟩]
  simp only [List.drop_left, hdigits]

/-- **A word is one token**, up to the first character that does not go on with it. -/
theorem first_word (L : Lexicon) {c : Char} {run rest : List Char} (hc : c ≠ ' ')
    (hfree : isFree c = false) (hrun : ∀ x ∈ run, goesOn c x = true)
    (h : ∀ x, rest.head? = some x → goesOn c x = false) :
    L.first c (run ++ rest) = some (some (.word (String.ofList (c :: run))), rest) := by
  have hopen : c ≠ L.opening := ne_of_isFree L.opening_free hfree
  have hsigil : c ≠ L.sigil := ne_of_isFree L.sigil_free hfree
  rw [first, if_neg hc, if_neg hopen, if_neg fun e => hsigil e.1]
  simp only [takeWhile_run hrun h, List.drop_left]

/-! ## Reading back what is spelled -/

/-- Where the first piece stands apart, the text breaks. -/
theorem breaks_spell (d : Dialect) (k : Nat) {ps : List Piece} (hs : wellSpaced ps = true)
    (ha : startsApart ps = true) : Breaks (spell d k ps) := by
  intro c hc
  match ps with
  | [] => simp [spell] at hc
  | .blank :: ps =>
    have : ' ' = c := by simpa [spell] using hc
    subst this
    rfl
  | .word s :: ps =>
    simp only [wellSpaced, Bool.and_eq_true, Piece.isClean] at hs
    simp only [startsApart, Piece.isApart, List.all_eq_true] at ha
    cases hcs : s.toList with
    | nil => simp [hcs] at hs
    | cons x run =>
      have hx : x = c := by simpa [spell, hcs] using hc
      subst hx
      simp [isApart, ha x (by simp [hcs])]
  | .name s :: ps => cases ha
  | .mark v :: ps => cases ha

variable {ps : List Piece}

/-- A name in front of well-spaced pieces is read as the name. -/
theorem lex_spell_name (hd : L.Describes d) (k : Nat) (s : String) (hs : wellSpaced ps = true)
    (ha : startsApart ps = true) :
    L.lex (spell d k (.name s :: ps)) = (L.lex (spell d k ps)).map (.name s :: ·) := by
  have hspell : spell d k (.name s :: ps) =
      L.opening :: (Text.double L.closing s.toList ++ L.closing :: spell d k ps) := by
    simp [spell, hd.quoteName, Text.quote]
  rw [hspell, lex_cons (first_name L _ (breaks_spell d k hs ha)), String.ofList_toList]
  rfl

/-- A mark in front of well-spaced pieces is read as the placeholder with its number. -/
theorem lex_spell_mark (hd : L.Describes d) (k : Nat) (v : Value) (hs : wellSpaced ps = true)
    (ha : startsApart ps = true) :
    L.lex (spell d k (.mark v :: ps)) =
      (L.lex (spell d (k + 1) ps)).map (.mark (d.placeholder k) :: ·) := by
  let digits := if L.numbered then Nat.toDigits 10 k else []
  have hdigits : ∀ c ∈ digits, c.isDigit = true := by
    intro c hc
    simp only [digits] at hc
    split at hc
    · exact isDigit_toDigits k c hc
    · cases hc
  have hnone : L.numbered = false → digits = [] := fun h => by simp [digits, h]
  have hspell : spell d k (.mark v :: ps) =
      L.sigil :: (L.sigilRest ++ digits ++ spell d (k + 1) ps) := by
    simp [spell, hd.placeholder, digits]
  have hmark : String.ofList (L.sigil :: (L.sigilRest ++ digits)) = d.placeholder k := by
    rw [← String.toList_inj, hd.placeholder, String.toList_ofList]
  rw [hspell, lex_cons (first_mark L hdigits hnone (breaks_spell d (k + 1) hs ha)), hmark]
  rfl

/-- A word in front of well-spaced pieces is read as the word. -/
theorem lex_spell_word (L : Lexicon) (k : Nat) {s : String} (h : (Piece.word s).isClean = true)
    (hs : wellSpaced ps = true) (ha : (Piece.word s).isApart = true ∨ startsApart ps = true) :
    L.lex (spell d k (.word s :: ps)) = (L.lex (spell d k ps)).map (.word s :: ·) := by
  cases hcs : s.toList with
  | nil => simp [Piece.isClean, hcs] at h
  | cons c run =>
    simp only [Piece.isClean, hcs, Bool.and_eq_true, bne_iff_ne, ne_eq, Bool.not_eq_true',
      List.all_eq_true] at h
    obtain ⟨⟨hc, hfree⟩, hrun⟩ := h
    have hstop : ∀ x, (spell d k ps).head? = some x → goesOn c x = false := by
      intro x hx
      rcases ha with hpoint | ha
      · have : isPoint c = true := by
          simp only [Piece.isApart, hcs, List.all_cons, Bool.and_eq_true] at hpoint
          exact hpoint.1
        rw [goesOn_of_isPoint this]
      · exact goesOn_of_isApart c (breaks_spell d k hs ha x hx)
    have hword : String.ofList (c :: run) = s := by rw [← hcs, String.ofList_toList]
    rw [spell, hcs, List.cons_append, lex_cons (first_word L hc hfree hrun hstop), hword]
    rfl

/-- **Well-spaced pieces are read back token by token**, a mark as the text of its placeholder. -/
theorem lex_spell (hd : L.Describes d) (k : Nat) (hs : wellSpaced ps = true) :
    L.lex (spell d k ps) = some (Token.number d.placeholder k (tokens ps)) := by
  induction ps generalizing k with
  | nil => simp [spell, lex, Token.number]
  | cons p ps ih =>
    simp only [wellSpaced, Bool.and_eq_true, Bool.or_eq_true] at hs
    obtain ⟨⟨hclean, hapart⟩, hps⟩ := hs
    cases p with
    | blank =>
      rw [spell, lex_cons (first_blank L _), ih k hps]
      simp
    | name s =>
      rw [lex_spell_name hd k s hps (by simpa [Piece.isApart] using hapart), ih k hps]
      rfl
    | mark v =>
      rw [lex_spell_mark hd k v hps (by simpa [Piece.isApart] using hapart), ih (k + 1) hps]
      rfl
    | word s =>
      rw [lex_spell_word L k hclean hps hapart, ih k hps]
      rfl

end Lexicon

end SelectQuery
