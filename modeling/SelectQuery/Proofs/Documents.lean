import Mathlib.Data.List.Basic
import SelectQuery.Settings
import SelectQuery.Proofs.Digits
import SelectQuery.Proofs.Strings

/-!
# Proofs/Documents — settings are read back from the lines that they are written as

A reader takes something off the front of a text and leaves the rest, so what it does to a line is
said for every rest: `Reader.bind_of_eq_some` hands the rest of one reader to the next.  A value
**reads as** an item (`ReadsAs`) if it is read up to the end of its line, and a `Line` is a key that
stands without quotes with such a value.  Strings read as their texts by `readText_quoted`; numbers
are a matter of decimal digits, of which no sign, mark or zero stands in front.

Each line adds its entry to the document (`Line.readDocumentLine_text`), so a document of lines is
read back by induction on the lines (`parse_lines`), and settings are two of them at most.
-/

namespace SelectQuery

/-! ## Readers -/

namespace Text.Reader

variable {α β σ : Type} {x : Reader α} {f : α → Reader β} {a : α} {s rest : List Char}
  {p : Char → Bool}

/-- **Readers in sequence**: the second one starts where the first one stops. -/
theorem bind_of_eq_some (h : x s = some (a, rest)) : (x >>= f) s = f a rest := by
  change (x s).bind _ = _
  rw [h]
  rfl

theorem map_of_eq_some (g : α → β) (h : x s = some (a, rest)) :
    (g <$> x) s = some (g a, rest) := by
  change (x s).bind _ = _
  rw [h]
  rfl

theorem char_self (c : Char) (s : List Char) : char c (c :: s) = some ((), s) := by
  rw [char, if_pos rfl]

/-- No run of the class goes on into the text. -/
def Stops (p : Char → Bool) (s : List Char) : Prop := ∀ c, s.head? = some c → p c = false

theorem Stops.cons {c : Char} (h : p c = false) (s : List Char) : Stops p (c :: s) := by
  rintro _ ⟨⟩
  exact h

/-- A run of the class is taken up to where it stops. -/
theorem span_run (run : List Char) (hrun : ∀ c ∈ run, p c = true) (h : Stops p rest) :
    span p (run ++ rest) = some (run, rest) := by
  rw [span, List.takeWhile_append_of_pos hrun, List.dropWhile_append_of_pos hrun]
  cases rest with
  | nil => simp
  | cons c rest => simp [h c rfl]

theorem skip_run (run : List Char) (hrun : ∀ c ∈ run, p c = true) (h : Stops p rest) :
    skip p (run ++ rest) = some ((), rest) :=
  congrArg (fun r => r.map fun q => ((), q.2)) (span_run run hrun h)

/-- The loop ends with the answer of its step. -/
theorem repeatFrom_stop {step : σ → Reader (σ ⊕ α)} {b : σ}
    (h : step b s = some (.inr a, rest)) : repeatFrom step b s = some (a, rest) := by
  rw [repeatFrom, h]

/-- The loop goes on behind what its step takes. -/
theorem repeatFrom_next {step : σ → Reader (σ ⊕ α)} {b b' : σ}
    (h : step b s = some (.inl b', rest)) (hlt : rest.length < s.length) :
    repeatFrom step b s = repeatFrom step b' rest := by
  rw [repeatFrom, h]
  exact if_pos hlt

end Text.Reader

namespace Toml

open Text (Reader)

variable {c : Char} {cs rest : List Char}

/-! ## Keys -/

theorem ne_of_isKeyChar (h : isKeyChar c = true) {x : Char} (hx : isKeyChar x = false) :
    c ≠ x := by
  rintro rfl
  rw [h] at hx
  cases hx

theorem isSpace_of_isKeyChar (h : isKeyChar c = true) : isSpace c = false := by
  have hspace : c ≠ ' ' := ne_of_isKeyChar h (by decide)
  have htab : c ≠ '\t' := ne_of_isKeyChar h (by decide)
  simp [isSpace, hspace, htab]

/-- No blanks are in front. -/
theorem spaces_none (h : Reader.Stops isSpace rest) : spaces rest = some ((), rest) :=
  Reader.skip_run [] (fun _ h => absurd h List.not_mem_nil) h

/-- One blank is in front. -/
theorem spaces_one (h : Reader.Stops isSpace rest) : spaces (' ' :: rest) = some ((), rest) :=
  Reader.skip_run [' '] (by simp [isSpace]) h

theorem readPart_bare (hc : isKeyChar c = true) (hcs : ∀ x ∈ cs, isKeyChar x = true)
    (h : Reader.Stops isKeyChar rest) :
    readPart (c :: (cs ++ rest)) = some (String.ofList (c :: cs), rest) := by
  have hdouble : c ≠ '"' := ne_of_isKeyChar hc (by decide)
  have hsingle : c ≠ '\'' := ne_of_isKeyChar hc (by decide)
  have hspan : Reader.span isKeyChar (c :: (cs ++ rest)) = some (c :: cs, rest) :=
    Reader.span_run (c :: cs) (List.forall_mem_cons.mpr ⟨hc, hcs⟩) h
  rw [readPart, Reader.bind_of_eq_some rfl, List.head?_cons]
  simp only [Option.some.injEq, hdouble, hsingle, imp_self]
  rw [Reader.bind_of_eq_some hspan]
  rfl

/-- **A key without quotes is read up to the sign behind it.** -/
theorem readKey_bare (hc : isKeyChar c = true) (hcs : ∀ x ∈ cs, isKeyChar x = true) :
    readKey (c :: (cs ++ ' ' :: '=' :: rest)) =
      some (([], String.ofList (c :: cs)), '=' :: rest) := by
  have hstart : spaces (c :: (cs ++ ' ' :: '=' :: rest)) =
      some ((), c :: (cs ++ ' ' :: '=' :: rest)) :=
    spaces_none (.cons (isSpace_of_isKeyChar hc) _)
  have hpart : readPart (c :: (cs ++ ' ' :: '=' :: rest)) =
      some (String.ofList (c :: cs), ' ' :: '=' :: rest) :=
    readPart_bare hc hcs (.cons (by decide) _)
  have hblank : spaces (' ' :: '=' :: rest) = some ((), '=' :: rest) :=
    spaces_one (.cons (by decide) _)
  refine Reader.repeatFrom_stop ?_
  rw [if_neg (by decide)]
  change (spaces >>= _) _ = _
  rw [Reader.bind_of_eq_some hstart, Reader.bind_of_eq_some hpart, Reader.bind_of_eq_some hblank,
    Reader.bind_of_eq_some rfl]
  rfl

/-! ## Values -/

/-- **A text reads as a value** if it is read up to the end of its line and no blank is in front. -/
structure ReadsAs (value : List Char) (v : Item) : Prop where
  stops : ∀ rest, Reader.Stops isSpace (value ++ '\n' :: rest)
  read : ∀ rest, readValue depthLimit (value ++ '\n' :: rest) = some (v, '\n' :: rest)

/-- Neither an array nor a table in braces begins here. -/
theorem readValue_of_ne (hbracket : c ≠ '[') (hbrace : c ≠ '\x7b') (s : List Char) :
    readValue depthLimit (c :: s) = readSimple (c :: s) := by
  change readValue (79 + 1) (c :: s) = _
  rw [readValue, Reader.bind_of_eq_some rfl, List.head?_cons]
  simp only [Option.some.injEq, hbracket, hbrace, imp_self]

/-- A string begins with a quote. -/
theorem exists_quoted (cs : List Char) : ∃ c t, (c = '"' ∨ c = '\'') ∧ quoted cs = c :: t := by
  rw [quoted]
  cases formOf cs with
  | basic | basicLines => exact ⟨_, _, .inl rfl, rfl⟩
  | literal | literalLines => exact ⟨_, _, .inr rfl, rfl⟩

/-- **A string reads as the text it is written for.** -/
theorem readsAs_quoted (s : String) : ReadsAs (quoted s.toList) (.text s) := by
  obtain ⟨c, t, hc, ht⟩ := exists_quoted s.toList
  refine ⟨fun rest => ?_, fun rest => ?_⟩
  · rw [ht, List.cons_append]
    exact .cons (by rcases hc with rfl | rfl <;> decide) _
  · have htext : readText (quoted s.toList ++ '\n' :: rest) = some (s, '\n' :: rest) := by
      rw [readText_quoted s.toList (by simp) (by simp), String.ofList_toList]
    have hsimple : readSimple (c :: (t ++ '\n' :: rest)) =
        (Item.text <$> readText) (c :: (t ++ '\n' :: rest)) := by
      rw [readSimple, Reader.bind_of_eq_some rfl, List.head?_cons]
      rcases hc with rfl | rfl <;> rfl
    rw [ht, List.cons_append] at htext ⊢
    rw [readValue_of_ne (by rcases hc with rfl | rfl <;> decide)
      (by rcases hc with rfl | rfl <;> decide), hsimple, Reader.map_of_eq_some _ htext]

/-! ## Numbers -/

section Digits

variable {ds : List Char}

theorem ungroup_digits (hne : ds ≠ []) (h : ∀ c ∈ ds, c.isDigit = true) :
    ungroup Char.isDigit ds = some ds := by
  induction ds with
  | nil => exact absurd rfl hne
  | cons c ds ih =>
    obtain ⟨hc, hds⟩ := List.forall_mem_cons.mp h
    cases ds with
    | nil => rw [ungroup, if_pos hc]
    | cons d ds =>
      have hd : d ≠ '_' := by
        rintro rfl
        exact absurd (hds _ List.mem_cons_self) (by decide)
      rw [ungroup, if_pos hc, ih (List.cons_ne_nil d ds) hds]
      · rfl
      · exact fun e => List.cons_ne_nil d ds e
      · exact fun _ e => hd (List.cons.inj e).1

/-- Decimal digits have no zero in front, unless they are a single one. -/
theorem head?_toDigits {n : Nat} (h : 0 < n) : (Nat.toDigits 10 n).head? ≠ some '0' := by
  have hdigit : ∀ n < 10, 0 < n → some n.digitChar ≠ some '0' := by decide
  induction n using Nat.strongRecOn with
  | ind n ih =>
    rw [Nat.toDigits_eq_if (by decide)]
    split
    · next hlt => exact hdigit n hlt h
    · next hge =>
      have hfront := ih (n / 10) (by omega) (by omega)
      cases hds : Nat.toDigits 10 (n / 10) with
      | nil => exact absurd hds Nat.toDigits_ne_nil
      | cons d ds =>
        rw [hds] at hfront
        exact hfront

theorem wholeDigits?_toDigits (n : Nat) :
    wholeDigits? (Nat.toDigits 10 n) = some (Nat.toDigits 10 n) := by
  have hzero : ¬((Nat.toDigits 10 n).head? = some '0' ∧ 1 < (Nat.toDigits 10 n).length) := by
    rintro ⟨hhead, hlength⟩
    rcases Nat.eq_zero_or_pos n with rfl | hpos
    · exact absurd hlength (by decide)
    · exact head?_toDigits hpos hhead
  rw [wholeDigits?, ungroup_digits Nat.toDigits_ne_nil (isDigit_toDigits n)]
  exact if_neg hzero

theorem hexDigit?_of_isDigit (h : c.isDigit = true) :
    Text.hexDigit? c = some (c.toNat - '0'.toNat) := by
  have hrange : '0' ≤ c ∧ c ≤ '9' := by
    simpa [Char.isDigit, Char.le_def] using h
  rw [Text.hexDigit?, if_pos hrange]
  rfl

theorem digitsValue_toDigits (n : Nat) : digitsValue 10 (Nat.toDigits 10 n) = n := by
  have hfold : digitsValue 10 (Nat.toDigits 10 n) = Nat.ofDigitChars 10 (Nat.toDigits 10 n) 0 := by
    rw [digitsValue, Nat.ofDigitChars]
    refine List.foldl_ext _ _ _ fun m c hc => ?_
    rw [hexDigit?_of_isDigit (isDigit_toDigits n c hc), Option.getD_some]
  rw [hfold, Nat.ofDigitChars_ten_toDigits]

/-- **An integer is read back from its decimal digits.** -/
theorem integer?_toDigits {n : Nat} (h : n < UInt64.size) :
    integer? (Nat.toDigits 10 n) = some (n : Int) := by
  have hsign : splitSign (Nat.toDigits 10 n) = (false, Nat.toDigits 10 n) := by
    rw [splitSign.eq_def]
    split
    · next e => exact absurd (e ▸ List.mem_cons_self) (notMem_toDigits (c := '+') (by decide) n)
    · next e => exact absurd (e ▸ List.mem_cons_self) (notMem_toDigits (c := '-') (by decide) n)
    · rfl
  have hmark {x : Char} (hx : x.isDigit = false) (ds : List Char) :
      Nat.toDigits 10 n ≠ '0' :: x :: ds := fun e =>
    notMem_toDigits hx n (e ▸ List.mem_cons_of_mem _ List.mem_cons_self)
  have hrange : -((1 <<< 127 : Nat) : Int) ≤ n ∧ (n : Int) < ((1 <<< 128 : Nat) : Int) := by
    rw [UInt64.size] at h
    rw [Nat.one_shiftLeft, Nat.one_shiftLeft]
    omega
  rw [integer?, hsign]
  · dsimp only
    rw [wholeDigits?_toDigits, Option.map_some, digitsValue_toDigits, Option.bind_eq_bind,
      Option.bind_some, if_neg Bool.false_ne_true, if_pos hrange]
    rfl
  · exact hmark (by decide)
  · exact hmark (by decide)
  · exact hmark (by decide)

theorem scalar?_toDigits {n : Nat} (h : n < UInt64.size) :
    scalar? (Nat.toDigits 10 n) = some (.integer n) := by
  have hword {word : String} {x : Char} (hx : x.isDigit = false) (hmem : x ∈ word.toList) :
      Nat.toDigits 10 n ≠ word.toList := fun e => notMem_toDigits hx n (e ▸ hmem)
  rw [scalar?, if_neg (hword (x := 't') (by decide) (by decide)),
    if_neg (hword (x := 'f') (by decide) (by decide)), integer?_toDigits h]

/-- **A number of sixty-four bits reads as itself.** -/
theorem readsAs_number (n : UInt64) : ReadsAs (toString n.toNat).toList (.integer n.toNat) := by
  rw [Nat.toString_eq_repr, Nat.toList_repr]
  obtain ⟨c, ds, hds⟩ := List.exists_cons_of_ne_nil (Nat.toDigits_ne_nil (b := 10) (n := n.toNat))
  have hc : c.isDigit = true := isDigit_toDigits n.toNat c (hds ▸ List.mem_cons_self)
  have hne {x : Char} (hx : x.isDigit = false) : c ≠ x := by
    rintro rfl
    rw [hc] at hx
    cases hx
  refine ⟨fun rest => ?_, fun rest => ?_⟩
  · rw [hds, List.cons_append]
    exact .cons (isSpace_of_isKeyChar (by simp [isKeyChar, Char.isAlphanum, hc])) _
  · have hrun : ∀ x ∈ Nat.toDigits 10 n.toNat, isScalarChar x = true := fun x hx => by
      simp [isScalarChar, Char.isAlphanum, isDigit_toDigits _ x hx]
    have hspan : Reader.span isScalarChar (Nat.toDigits 10 n.toNat ++ '\n' :: rest) =
        some (Nat.toDigits 10 n.toNat, '\n' :: rest) :=
      Reader.span_run _ hrun (.cons (by decide) _)
    obtain ⟨hfront, hrest⟩ := Prod.mk.inj (Option.some.inj hspan)
    have hscalar : readScalar (Nat.toDigits 10 n.toNat ++ '\n' :: rest) =
        some (.integer n.toNat, '\n' :: rest) := by
      rw [readScalar, hfront, hrest, scalar?_toDigits n.toNat_lt_size]
      rfl
    rw [hds, List.cons_append] at hscalar ⊢
    rw [readValue_of_ne (hne (by decide)) (hne (by decide)), readSimple,
      Reader.bind_of_eq_some rfl, List.head?_cons]
    have hdouble : c ≠ '"' := hne (by decide)
    have hsingle : c ≠ '\'' := hne (by decide)
    simp only [Option.some.injEq, hdouble, hsingle, imp_self]
    exact hscalar

end Digits

/-! ## Lines -/

/-- A new key without points is added at the end of the table that was opened last, the document
itself. -/
theorem addEntryAt_nil {key : String} {es : Entries} (h : es.lookup key = none) (v : Item) :
    addEntryAt [] [] key v es = some (es ++ [(key, v)]) := by
  simp [addEntryAt, addEntry, descend, h]

/-- A key, a sign and a value, up to the end of the line. -/
theorem readEntry_line {value : List Char} {v : Item} {es : Entries}
    {add : List String → String → Item → Option Entries} (hc : isKeyChar c = true)
    (hcs : ∀ x ∈ cs, isKeyChar x = true) (hv : ReadsAs value v)
    (hadd : add [] (String.ofList (c :: cs)) v = some es) (rest : List Char) :
    readEntry spaces (readValue depthLimit) add
        (c :: (cs ++ ' ' :: '=' :: ' ' :: (value ++ '\n' :: rest))) =
      some (es, '\n' :: rest) := by
  have hsign : spaces ('=' :: ' ' :: (value ++ '\n' :: rest)) =
      some ((), '=' :: ' ' :: (value ++ '\n' :: rest)) := spaces_none (.cons (by decide) _)
  rw [readEntry, Reader.bind_of_eq_some (readKey_bare hc hcs)]
  dsimp only
  rw [Reader.bind_of_eq_some hsign, Reader.bind_of_eq_some (Reader.char_self '=' _),
    Reader.bind_of_eq_some (spaces_one (hv.stops rest)), Reader.bind_of_eq_some (hv.read rest),
    hadd]
  rfl

/-- **A line that reads back**: a key without quotes, and a value that reads as an item. -/
structure Line where
  key : String
  value : String
  item : Item
  key_ne : key ≠ ""
  key_bare : ∀ c ∈ key.toList, isKeyChar c = true
  reads : ReadsAs value.toList item

namespace Line

/-- The text of a line. -/
def text (l : Line) : String := line l.key l.value

/-- What a line adds to a document. -/
def entry (l : Line) : String × Item := (l.key, l.item)

/-- A line begins with the first character of its key. -/
theorem exists_toList_text (l : Line) :
    ∃ c cs, isKeyChar c = true ∧ l.text.toList = c :: cs := by
  obtain ⟨c, cs, hcs⟩ := List.exists_cons_of_ne_nil (mt String.toList_eq_nil_iff.mp l.key_ne)
  have hc : isKeyChar c = true := l.key_bare c (hcs ▸ List.mem_cons_self)
  exact ⟨c, cs ++ " = ".toList ++ l.value.toList ++ ['\n'], hc, by simp [text, line, hcs]⟩

/-- **A line adds its entry to the document**, if its key is new. -/
theorem readDocumentLine_text (l : Line) {es : Entries} (hnew : es.lookup l.key = none)
    (rest : List Char) :
    readDocumentLine ⟨es, []⟩ (l.text.toList ++ rest) =
      some (.inl ⟨es ++ [l.entry], []⟩, rest) := by
  obtain ⟨c, cs, hcs⟩ := List.exists_cons_of_ne_nil (mt String.toList_eq_nil_iff.mp l.key_ne)
  have hkey := l.key_bare
  rw [hcs] at hkey
  obtain ⟨hc, hkey⟩ := List.forall_mem_cons.mp hkey
  have hline : l.text.toList ++ rest =
      c :: (cs ++ ' ' :: '=' :: ' ' :: (l.value.toList ++ '\n' :: rest)) := by
    simp [text, line, hcs]
  have hstart := spaces_none (.cons (isSpace_of_isKeyChar hc)
    (cs ++ ' ' :: '=' :: ' ' :: (l.value.toList ++ '\n' :: rest)))
  have hadd : addEntryAt [] [] (String.ofList (c :: cs)) l.item es = some (es ++ [l.entry]) := by
    rw [← hcs, String.ofList_toList, addEntryAt_nil hnew l.item]
    rfl
  have hentry : readEntry spaces (readValue depthLimit)
      (fun path key v => addEntryAt [] path key v es)
      (c :: (cs ++ ' ' :: '=' :: ' ' :: (l.value.toList ++ '\n' :: rest))) =
      some (es ++ [l.entry], '\n' :: rest) := readEntry_line hc hkey l.reads hadd rest
  have hend : spaces ('\n' :: rest) = some ((), '\n' :: rest) := spaces_none (.cons (by decide) _)
  -- the line is neither empty nor a comment nor a header
  have hbreak : c ≠ '\n' := ne_of_isKeyChar hc (by decide)
  have hreturn : c ≠ '\r' := ne_of_isKeyChar hc (by decide)
  have hcomment : c ≠ '#' := ne_of_isKeyChar hc (by decide)
  have hheader : c ≠ '[' := ne_of_isKeyChar hc (by decide)
  rw [hline, readDocumentLine, Reader.bind_of_eq_some rfl, if_neg (by simp),
    Reader.bind_of_eq_some hstart, Reader.bind_of_eq_some rfl, List.head?_cons]
  simp only []
  rw [Reader.bind_of_eq_some hentry, Reader.bind_of_eq_some rfl, Reader.bind_of_eq_some hend,
    Reader.bind_of_eq_some rfl, Reader.bind_of_eq_some rfl]
  rfl

end Line

/-- **Lines add their entries to the document**, if no key is among those before. -/
theorem repeatFrom_lines {ls : List Line} {es : Entries}
    (h : (es.map Prod.fst ++ ls.map Line.key).Nodup) :
    Reader.repeatFrom readDocumentLine ⟨es, []⟩ (String.join (ls.map Line.text)).toList =
      some (es ++ ls.map Line.entry, []) := by
  induction ls generalizing es with
  | nil =>
    simp only [List.map_nil, List.append_nil]
    exact Reader.repeatFrom_stop rfl
  | cons l ls ih =>
    have hnew : es.lookup l.key = none := by
      refine List.lookup_eq_none_iff.mpr fun e he => bne_iff_ne.mpr fun heq => ?_
      exact (List.nodup_append.mp h).2.2 _ (List.mem_map_of_mem he) _ List.mem_cons_self heq.symm
    have hkeys : ((es ++ [l.entry]).map Prod.fst ++ ls.map Line.key).Nodup := by
      simpa [Line.entry] using h
    obtain ⟨c, cs, -, hcs⟩ := l.exists_toList_text
    have hlt (rest : List Char) : rest.length < (l.text.toList ++ rest).length := by
      rw [hcs, List.length_append, List.length_cons]
      omega
    rw [List.map_cons, String.join_cons, String.toList_append,
      Reader.repeatFrom_next (l.readDocumentLine_text hnew _) (hlt _), ih hkeys, List.map_cons,
      List.append_assoc, List.singleton_append]

/-- **A document of lines is read back.** -/
theorem parse_lines {ls : List Line} (h : (ls.map Line.key).Nodup) :
    parse (String.join (ls.map Line.text)) = some (ls.map Line.entry) := by
  have hmark : (String.join (ls.map Line.text)).toList.head? ≠ some '\uFEFF' := by
    cases ls with
    | nil => simp
    | cons l ls =>
      obtain ⟨c, cs, hc, hcs⟩ := l.exists_toList_text
      rw [List.map_cons, String.join_cons, String.toList_append, hcs]
      exact fun e => ne_of_isKeyChar hc (by decide) (Option.some.inj e)
  rw [parse, if_neg hmark, repeatFrom_lines (by simpa using h)]
  rfl

end Toml

/-! ## Settings -/

namespace Settings

open Toml

/-- The line of the dialect. -/
def dialectLine (s : Settings) : Line where
  key := "dialect"
  value := String.ofList (quoted s.dialect.toList)
  item := .text s.dialect
  key_ne := by decide
  key_bare := List.all_eq_true.mp rfl
  reads := by
    rw [String.toList_ofList]
    exact readsAs_quoted s.dialect

/-- The line of a ceiling. -/
def ceilingLine (n : UInt64) : Line where
  key := "max_limit"
  value := toString n.toNat
  item := .integer n.toNat
  key_ne := by decide
  key_bare := List.all_eq_true.mp rfl
  reads := readsAs_number n

/-- The lines of settings: the dialect, and the ceiling if there is one. -/
def lines (s : Settings) : List Line := s.dialectLine :: s.maxLimit.toList.map ceilingLine

theorem toToml_eq (s : Settings) : s.toToml = String.join (s.lines.map Line.text) := by
  rcases s with ⟨dialect, _ | n⟩
  · simp [toToml, lines, dialectLine, Line.text, textLine]
  · simp [toToml, lines, dialectLine, ceilingLine, Line.text, textLine]

/-- The settings of what their lines add to a document. -/
theorem ofEntries?_lines (s : Settings) : ofEntries? (s.lines.map Line.entry) = some s := by
  rcases s with ⟨dialect, _ | n⟩
  · rfl
  · let es : Entries := (lines ⟨dialect, some n⟩).map Line.entry
    have hdialect : readDialect? es = some dialect := rfl
    have hlookup : es.lookup "max_limit" = some (.integer n.toNat) := rfl
    have hrange : (0 : Int) ≤ n.toNat ∧ (n.toNat : Int) < UInt64.size := by
      have := n.toNat_lt_size
      omega
    have hceiling : readMaxLimit? es = some (some n) := by
      rw [readMaxLimit?, hlookup]
      dsimp only
      rw [if_pos hrange, Int.toNat_natCast, UInt64.ofNat_toNat]
    rw [ofEntries?, hdialect, hceiling]
    rfl

/-- **Settings are read back** from the text that they are written as, however texts are explained
that are refused. -/
theorem ofToml_toToml (explain : String → String) (s : Settings) :
    ofToml explain s.toToml = .ok s := by
  have hkeys : (s.lines.map Line.key).Nodup := by
    rcases s with ⟨dialect, _ | n⟩
    · simp [lines]
    · simp [lines, dialectLine, ceilingLine]
  rw [ofToml, toToml_eq, parse_lines hkeys, Option.bind_some, ofEntries?_lines]

end Settings

end SelectQuery
