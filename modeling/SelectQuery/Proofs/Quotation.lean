import SelectQuery.Proofs.Database

/-!
# Proofs/Quotation — where a quoted name ends

A quoted name says itself where it ends: `Text.scan` opens with its first character and closes with
the first closing character that is not doubled, and what it takes off the front of a text is
exactly the name that stands there, whatever the name is made of and whatever follows that is not a
closing character (`Text.scan_quote`).  A scan has one result, so names that begin the same text are
the same name (`Text.quote_append_inj`).

This is all that keeps names apart in a statement.  A schema and a table have a point between them,
which closes nothing, so a reference is read off its text from the left
(`Table.quoted_injective`).
-/

namespace SelectQuery

namespace Text

/-- **Doubling is undone.** -/
theorem undouble_double (close : Char) (cs : List Char) :
    undouble close (double close cs) = some cs := by
  induction cs with
  | nil => rfl
  | cons c cs ih =>
    rw [double]
    split
    · next hc => rw [undouble, if_pos rfl, if_pos rfl, ih, hc, Option.map_some]
    · next hc =>
      cases hd : double close cs with
      | nil =>
        rw [hd] at ih
        rw [undouble, if_neg hc, ← Option.some.inj ih]
      | cons d ds =>
        rw [hd] at ih
        rw [undouble, if_neg hc, ih, Option.map_some]

/-- The text that is quoted: its delimiters are taken off, and what is doubled is undone. -/
def unquote? (openChar close : Char) (s : String) : Option String :=
  match s.toList with
  | [] => none
  | c :: cs =>
    if c = openChar ∧ cs.getLast? = some close then
      (undouble close cs.dropLast).map String.ofList
    else none

theorem toList_quote (openChar close : Char) (s : String) :
    (quote openChar close s).toList = openChar :: (double close s.toList ++ [close]) :=
  String.toList_ofList

/-- **A quoted text gives back the text.** -/
theorem unquote?_quote (openChar close : Char) (s : String) :
    unquote? openChar close (quote openChar close s) = some s := by
  rw [unquote?, toList_quote]
  dsimp only
  rw [List.getLast?_concat, List.dropLast_concat, undouble_double, if_pos ⟨rfl, rfl⟩,
    Option.map_some, String.ofList_toList]

/-- **The scanner**: it opens with the first character and closes with the first closing character
that has no other one behind it to make a pair with.  What stands between, and what is left. -/
def scan (openChar close : Char) : List Char → Option (List Char × List Char)
  | [] => none
  | c :: cs => if c = openChar then Lexicon.readName close cs else none

/-- **A scan stops at the end of the quoted text.** -/
theorem scan_quote (openChar close : Char) (s : String) {rest : String}
    (h : rest.toList.head? ≠ some close) :
    scan openChar close (quote openChar close s ++ rest).toList =
      some (s.toList, rest.toList) := by
  rw [String.toList_append, toList_quote, List.cons_append, List.append_assoc,
    List.singleton_append, scan, if_pos rfl, Lexicon.readName_double close s.toList h]

/-- **Quoted texts delimit themselves**: what begins with two of them begins with one. -/
theorem quote_append_inj (openChar close : Char) {s t r r' : String}
    (hr : r.toList.head? ≠ some close) (hr' : r'.toList.head? ≠ some close)
    (h : quote openChar close s ++ r = quote openChar close t ++ r') : s = t ∧ r = r' := by
  have hscan : some (s.toList, r.toList) = some (t.toList, r'.toList) := by
    rw [← scan_quote openChar close s hr, ← scan_quote openChar close t hr', h]
  obtain ⟨hst, hrr⟩ := Prod.mk.inj (Option.some.inj hscan)
  exact ⟨String.toList_inj.mp hst, String.toList_inj.mp hrr⟩

theorem quote_injective (openChar close : Char) : Function.Injective (quote openChar close) :=
  fun s t h => Option.some.inj <| by
    rw [← unquote?_quote openChar close s, h, unquote?_quote]

end Text

/-! ## Tables -/

theorem Text.head?_point_ne {close : Char} (hclose : '.' ≠ close) (s : String) :
    ("." ++ s).toList.head? ≠ some close := by simpa using hclose

/-- A name with a point behind it is not the whole of another name. -/
theorem Text.quote_append_point_ne (openChar : Char) {close : Char} (hclose : '.' ≠ close)
    (s t u : String) : quote openChar close s ++ ("." ++ u) ≠ quote openChar close t := by
  intro h
  rw [← String.append_empty (s := quote openChar close t)] at h
  have hrest := (quote_append_inj openChar close (head?_point_ne hclose u) (by simp) h).2
  simp [← String.toList_inj] at hrest

/-- **A reference is read off its text.**  Names end where their quotations do, so it is seen from
the text whether a point stands between two of them or inside of one. -/
theorem Table.quoted_injective (openChar : Char) {close : Char} (hclose : '.' ≠ close) :
    Function.Injective (Table.quoted (Text.quote openChar close)) := by
  have hpoint := Text.head?_point_ne hclose
  intro t t' h
  cases t <;> cases t' <;>
    simp only [Table.quoted, String.append_assoc] at h
  case plain.plain n n' => rw [Text.quote_injective openChar close h]
  case plain.within n s' n' =>
    exact absurd h.symm (Text.quote_append_point_ne openChar hclose s' n _)
  case within.plain s n n' =>
    exact absurd h (Text.quote_append_point_ne openChar hclose s n' _)
  case within.within s n s' n' =>
    obtain ⟨rfl, hrest⟩ := Text.quote_append_inj openChar close (hpoint _) (hpoint _) h
    have hname := String.toList_inj.mpr hrest
    rw [String.toList_append, String.toList_append] at hname
    rw [Text.quote_injective openChar close
      (String.toList_inj.mp (List.append_cancel_left hname))]

namespace Database

theorem point_ne_closing (b : Database) : '.' ≠ b.lexicon.closing := by cases b <;> decide

/-- **Names and tables are kept apart** in every database: names that begin the same text are the
same, a quoted name gives back the name, a scan stops where the name ends, and no two references to
tables are written alike, whatever points and quotes there are in the names. -/
theorem names_delimit_themselves (b : Database) :
    (∀ n n' r r' : String,
      r.toList.head? ≠ some b.lexicon.closing → r'.toList.head? ≠ some b.lexicon.closing →
      b.dialect.quoteName n ++ r = b.dialect.quoteName n' ++ r' → n = n' ∧ r = r') ∧
    (∀ n : String, Text.unquote? b.lexicon.opening b.lexicon.closing (b.dialect.quoteName n) =
      some n) ∧
    (∀ n rest : String, rest.toList.head? ≠ some b.lexicon.closing →
      Text.scan b.lexicon.opening b.lexicon.closing (b.dialect.quoteName n ++ rest).toList =
        some (n.toList, rest.toList)) ∧
    Function.Injective b.dialect.quoteTable := by
  rw [b.quoteTable_eq, b.describes.quoteName]
  exact ⟨fun _ _ _ _ hr hr' h => Text.quote_append_inj _ _ hr hr' h,
    Text.unquote?_quote _ _,
    fun n _ h => Text.scan_quote _ _ n h,
    Table.quoted_injective _ b.point_ne_closing⟩

/-- A name with brackets in it and at its end, behind which a column of another table stands. -/
theorem bracketed_delimits_itself :
    Text.scan '[' ']' (Dialect.sqlserver.quoteName "]x]]" ++ ".[y]").toList =
      some ("]x]]".toList, ".[y]".toList) ∧
    (∀ n r : String, r.toList.head? ≠ some ']' →
      Dialect.sqlserver.quoteName "]x]]" ++ ".[y]" = Dialect.sqlserver.quoteName n ++ r →
      "]x]]" = n ∧ ".[y]" = r) ∧
    Dialect.sqlserver.quoteTable (.plain "a].[b") ≠
      Dialect.sqlserver.quoteTable (.within "a" "b") := by
  obtain ⟨hname, _, hscan, htable⟩ := names_delimit_themselves .sqlserver
  exact ⟨hscan "]x]]" ".[y]" (by decide), fun n r hr => hname "]x]]" n ".[y]" r (by decide) hr,
    fun h => absurd (htable h) (by decide)⟩

end Database

end SelectQuery
