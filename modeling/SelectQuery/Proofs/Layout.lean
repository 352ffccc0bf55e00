import SelectQuery.Query.Build
import SelectQuery.Proofs.Database
import SelectQuery.Proofs.Draft

/-!
# Proofs/Layout — the pieces of a whole statement

A statement is the spelling of pieces: of `Query.count` for the count of rows, of `Database.rows`
for the rows themselves.  The first does not depend on the database at all; the second does only in
the clause for the page and in what stands in for a missing order before it.
`Query.buildCount_value` and `Query.build_value` say that building spells exactly these pieces, and
fails exactly where their draft does.
-/

namespace SelectQuery

/-! ## Where a text ends

A keyword is set apart by a blank where the text before it does not end in one.  The text of pieces
ends in **ink**, not in a blank, wherever their last piece does. -/

namespace Piece

/-- The text of the piece does not end in a blank. -/
def isInk : Piece → Bool
  | blank => false
  | p => p.isClean

end Piece

namespace Writer

/-- The text ends in something else than a blank. -/
def EndsInInk (w : Writer) : Prop := ∃ cs c, w.text.toList = cs ++ [c] ∧ c ≠ ' '

theorem space_of_endsInInk {w : Writer} (h : w.EndsInInk) : w.space = w.push " " := by
  obtain ⟨cs, c, hcs, hne⟩ := h
  rw [space, hcs, List.getLast?_concat]
  split
  · next e => cases e
  · next e => exact absurd (Option.some.inj e) hne
  · rfl

/-- A text without blanks ends in ink. -/
theorem endsInInk_of_append {w : Writer} {cs ink : List Char} (h : w.text.toList = cs ++ ink)
    (hne : ink ≠ []) (hink : ' ' ∉ ink) : w.EndsInInk := by
  refine ⟨cs ++ ink.dropLast, ink.getLast hne, ?_, fun e => hink (e ▸ List.getLast_mem hne)⟩
  rw [h, List.append_assoc, List.dropLast_concat_getLast]

end Writer

section Ink

variable {L : Lexicon} {d : Dialect}

/-- The text of a word is ink from end to end. -/
theorem Piece.blank_notMem_word {s : String} (h : (Piece.word s).isClean = true) :
    s.toList ≠ [] ∧ ' ' ∉ s.toList := by
  cases hcs : s.toList with
  | nil => simp [isClean, hcs] at h
  | cons c run =>
    simp only [isClean, hcs, Bool.and_eq_true, bne_iff_ne, List.all_eq_true] at h
    refine ⟨List.cons_ne_nil c run, fun hmem => ?_⟩
    rcases List.mem_cons.mp hmem with rfl | hmem
    · exact h.1.1 rfl
    · have hgoes := h.2 ' ' hmem
      rw [Lexicon.goesOn_of_isApart c rfl] at hgoes
      cases hgoes

/-- The text of a placeholder is ink from end to end. -/
theorem Lexicon.Describes.blank_notMem_placeholder (hd : L.Describes d) (k : Nat) :
    ' ' ∉ (d.placeholder k).toList := by
  have hsigil : L.sigil ≠ ' ' := (ne_of_isFree L.sigil_free (by decide)).symm
  rw [hd.placeholder, List.mem_cons, List.mem_append]
  rintro (e | hmem | hmem)
  · exact hsigil e.symm
  · exact L.blank_notMem hmem
  · split at hmem
    · exact notMem_toDigits rfl k hmem
    · cases hmem

theorem Lexicon.Describes.endsInInk_put (hd : L.Describes d) (w : Writer) {p : Piece}
    (h : p.isInk = true) : (w.put d p).EndsInInk := by
  cases p with
  | blank => cases h
  | word s =>
    obtain ⟨hne, hink⟩ := Piece.blank_notMem_word h
    exact Writer.endsInInk_of_append (String.toList_append ..) hne hink
  | name s =>
    have hclose : L.closing ≠ ' ' := (ne_of_isFree L.closing_free (by decide)).symm
    refine ⟨w.text.toList ++ L.opening :: Text.double L.closing s.toList, L.closing, ?_, hclose⟩
    simp [Writer.put, Writer.name, Writer.push, hd.quoteName, Text.quote]
  | mark v =>
    have hne : (d.placeholder w.next).toList ≠ [] := by
      rw [hd.placeholder]
      exact List.cons_ne_nil _ _
    exact Writer.endsInInk_of_append (String.toList_append ..) hne (hd.blank_notMem_placeholder _)

/-- **Pieces that end in ink make a text that ends in ink.** -/
theorem Lexicon.Describes.endsInInk_putAll (hd : L.Describes d) (w : Writer) {ps : List Piece}
    {p : Piece} (hp : ps.getLast? = some p) (h : p.isInk = true) : (w.putAll d ps).EndsInInk := by
  obtain ⟨qs, rfl⟩ := List.getLast?_eq_some_iff.mp hp
  rw [Writer.putAll_append]
  exact hd.endsInInk_put _ h

/-- Pieces behind ink leave ink at the end, if they end in it at all. -/
theorem Lexicon.Describes.endsInInk_behind (hd : L.Describes d) {w : Writer} (hw : w.EndsInInk)
    {ps : List Piece} (h : ∀ p, ps.getLast? = some p → p.isInk = true) :
    (w.putAll d ps).EndsInInk := by
  cases hp : ps.getLast? with
  | none => rw [List.getLast?_eq_none_iff.mp hp]; exact hw
  | some p => exact hd.endsInInk_putAll w hp (h p hp)

end Ink

theorem Database.isInk_fallbackPieces (b : Database) (p : Piece)
    (hp : b.fallbackPieces.getLast? = some p) : p.isInk = true := by
  cases b <;> cases hp
  rfl

/-! ## Clauses -/

namespace Writing

variable {d : Dialect} {w : Writer}

/-- **A clause behind ink** is a blank, its keyword, a blank and what it says. -/
theorem WritesTo.clause {L : Lexicon} (hd : L.Describes d) (hw : w.EndsInInk) {s : String}
    (ps : List Piece) {p : Piece} (hf : ps.all Piece.isFixed = true) (hs : s = fixedText ps)
    (hp : ps.getLast? = some p) (hink : p.isInk = true) {x : Writing Unit} {X : Draft}
    (hx : Writes d x X) :
    WritesTo d w (do keyword s; space; x) (⟨.blank :: (ps ++ [.blank]), none⟩ ++ X) := by
  have hkey : WritesTo d w (keyword s) ⟨.blank :: ps, none⟩ := by
    refine WritesTo.modify ?_
    rw [Writer.keyword, Writer.space_of_endsInInk hw, hs, Writer.push_fixedText d _ hf]
    rfl
  have hlast : (Piece.blank :: ps).getLast? = some p := by
    rw [List.getLast?_cons, hp]
    rfl
  have hend : (w.putAll d (.blank :: ps)).EndsInInk := hd.endsInInk_putAll w hlast hink
  have hspace : WritesTo d (w.putAll d (.blank :: ps)) space ⟨[.blank], none⟩ :=
    WritesTo.modify (Writer.space_of_endsInInk hend)
  have hall := hkey.seq fun _ => hspace.seq fun _ => hx _
  simpa [WritesTo, Draft.append_of_none] using hall

end Writing

namespace Table

/-- A table in pieces. -/
def pieces : Table → List Piece
  | plain n => [.name n]
  | within s n => [.name s, .word ".", .name n]

end Table

namespace Query

/-- The selected columns. -/
def columnsDraft (q : Query) : Draft :=
  if q.columns.isEmpty then ⟨[.word "*"], none⟩
  else .join commaPieces (q.columns.map fun c => ⟨[.name c], none⟩)

/-- From the start of a statement to its table. -/
def headDraft (q : Query) (selection : Draft) : Draft :=
  ⟨[.word "SELECT", .blank], none⟩ ++
    (selection ++ ⟨.blank :: .word "FROM" :: .blank :: q.table.pieces, none⟩)

/-- The filter. -/
def filterDraft (q : Query) : Draft :=
  if q.conditions.isEmpty then ⟨[], none⟩
  else ⟨[.blank, .word "WHERE", .blank], none⟩ ++
    .join Combinator.and.pieces (q.conditions.map Condition.draft)

/-- A field and its direction. -/
def orderDraft (o : String × Order) : Draft := ⟨[.name o.1, .blank, .word o.2.sql], none⟩

/-- The orders; without any, the fallback before a page that is asked for. -/
def ordersDraft (q : Query) (fallback : List Piece) : Draft :=
  if q.orders.isEmpty then
    if fallback.isEmpty || q.page.isEmpty then ⟨[], none⟩
    else ⟨[.blank, .word "ORDER", .blank, .word "BY", .blank] ++ fallback, none⟩
  else ⟨[.blank, .word "ORDER", .blank, .word "BY", .blank], none⟩ ++
    .join commaPieces (q.orders.map orderDraft)

/-- The page with its limit lowered to the ceiling. -/
def effectivePage (q : Query) : Page := { limit := q.effectiveLimit.value, offset := q.page.offset }

/-- What selects the count. -/
def countPieces : List Piece := [.word "COUNT", .word "(", .word "*", .word ")"]

/-- The count of the rows. -/
def count (q : Query) : Draft :=
  if q.table.isEmpty then .refuse .missingTable
  else q.headDraft ⟨countPieces, none⟩ ++ q.filterDraft

end Query

namespace Database

/-- The clause for a page behind the rest of a statement. -/
def pageDraft (b : Database) (p : Page) : Draft :=
  if (b.pagePieces p).isEmpty then ⟨[], none⟩ else ⟨.blank :: b.pagePieces p, none⟩

/-- The rows. -/
def rows (b : Database) (q : Query) : Draft :=
  if q.table.isEmpty then .refuse .missingTable
  else q.headDraft q.columnsDraft ++ q.filterDraft ++
    (q.ordersDraft b.fallbackPieces ++ b.pageDraft q.effectivePage)

end Database

/-! ## Statements without a fault -/

namespace Query

theorem fault?_columnsDraft (q : Query) : q.columnsDraft.fault? = none := by
  rw [columnsDraft]
  split
  · rfl
  · exact Draft.fault?_join_map q.columns fun _ => rfl

theorem fault?_ordersDraft (q : Query) (fallback : List Piece) :
    (q.ordersDraft fallback).fault? = none := by
  rw [ordersDraft]
  split
  · split <;> rfl
  · exact Draft.fault?_append.mpr ⟨rfl, Draft.fault?_join_map q.orders fun _ => rfl⟩

variable {q : Query}

theorem fault?_headDraft (q : Query) {selection : Draft} (h : selection.fault? = none) :
    (q.headDraft selection).fault? = none := by
  rw [headDraft]
  simp [h]

/-- A filter is free of faults where its conditions are. -/
theorem fault?_filterDraft :
    q.filterDraft.fault? = none ↔ ∀ c ∈ q.conditions, c.WellFormed := by
  rw [filterDraft]
  split
  · next he => simp [List.isEmpty_iff.mp he]
  · rw [Draft.fault?_append_mk, Condition.fault?_join_draft]

/-- What a filter puts: the keyword, and its conditions with `AND` between them. -/
theorem pieces_filterDraft (hne : q.conditions ≠ []) :
    q.filterDraft.pieces = [.blank, .word "WHERE", .blank] ++
      (Draft.join Combinator.and.pieces (q.conditions.map Condition.draft)).pieces := by
  rw [filterDraft, if_neg (by simpa using hne), Draft.pieces_append_mk]

/-- **A count can be asked for** if the table has a name and every condition a text. -/
theorem fault?_count :
    q.count.fault? = none ↔ q.table.isEmpty = false ∧ ∀ c ∈ q.conditions, c.WellFormed := by
  have hhead : (q.headDraft ⟨countPieces, none⟩).fault? = none := q.fault?_headDraft rfl
  rw [count]
  split
  · next ht => simp [ht]
  · next ht => simp [ht, hhead, fault?_filterDraft]

/-- **A count puts its head and its filter.** -/
theorem pieces_count (hf : q.count.fault? = none) :
    q.count.pieces = (q.headDraft ⟨countPieces, none⟩).pieces ++ q.filterDraft.pieces := by
  rw [count, if_neg (by simp [(fault?_count.mp hf).1]),
    Draft.pieces_append _ (q.fault?_headDraft rfl)]

end Query

namespace Database

variable {b : Database} {q : Query}

theorem fault?_pageDraft (b : Database) (p : Page) : (b.pageDraft p).fault? = none := by
  rw [pageDraft]
  split <;> rfl

/-- **Rows can be asked for** where their count can. -/
theorem fault?_rows :
    (b.rows q).fault? = none ↔ q.table.isEmpty = false ∧ ∀ c ∈ q.conditions, c.WellFormed := by
  have hhead := q.fault?_headDraft q.fault?_columnsDraft
  rw [rows]
  split
  · next ht => simp [ht]
  · next ht =>
    simp [ht, hhead, Query.fault?_filterDraft, q.fault?_ordersDraft b.fallbackPieces,
      fault?_pageDraft]

/-- **Rows put head, filter, orders and page**, in this order. -/
theorem pieces_rows (hf : (b.rows q).fault? = none) :
    (b.rows q).pieces = (q.headDraft q.columnsDraft).pieces ++ q.filterDraft.pieces ++
      ((q.ordersDraft b.fallbackPieces).pieces ++ (b.pageDraft q.effectivePage).pieces) := by
  obtain ⟨ht, hwell⟩ := fault?_rows.mp hf
  have hhead := q.fault?_headDraft q.fault?_columnsDraft
  have hstart : (q.headDraft q.columnsDraft ++ q.filterDraft).fault? = none :=
    Draft.fault?_append.mpr ⟨hhead, Query.fault?_filterDraft.mpr hwell⟩
  rw [rows, if_neg (by simp [ht]), Draft.pieces_append _ hstart, Draft.pieces_append _ hhead,
    Draft.pieces_append _ (q.fault?_ordersDraft b.fallbackPieces)]

end Database

/-! ## Building writes these pieces -/

namespace Condition

/-- The text of a condition ends in ink. -/
theorem getLast?_draft {c : Condition} (h : c.WellFormed) :
    ∃ p, c.draft.pieces.getLast? = some p ∧ p.isInk = true := by
  cases h with
  | compare hfit =>
    cases hfit with
    | single hop v => exact ⟨.mark v, by simp [draft, comparisonDraft, hop], rfl⟩
    | member v vs =>
      exact ⟨.word ")", Draft.getLast?_pieces_append rfl
        (Draft.getLast?_pieces_append (fault?_markList _) rfl), rfl⟩
    | between low high => exact ⟨.mark high, rfl, rfl⟩
  | group hne hm =>
    refine ⟨.word ")", ?_, rfl⟩
    rw [pieces_draft_group hne hm, ← List.cons_append, List.getLast?_concat]
  | not hin =>
    refine ⟨.word ")", ?_, rfl⟩
    rw [pieces_draft_not hin, ← List.cons_append, ← List.cons_append, ← List.cons_append,
      List.getLast?_concat]

end Condition

namespace Query

variable {q : Query} {L : Lexicon}

theorem writeColumns_writes (q : Query) :
    Writing.Writes q.dialect q.writeColumns q.columnsDraft := by
  rw [writeColumns, columnsDraft]
  split
  · exact Writing.Writes.word "*"
  · exact Writing.Writes.list Writing.Writes.comma _ fun c _ => Writing.Writes.name c

/-- From the start of a statement to its table it is written as drafted. -/
theorem writeHead_writes {selection : Writing Unit} {draft : Draft}
    (ht : q.dialect.quoteTable = Table.quoted q.dialect.quoteName)
    (hs : Writing.Writes q.dialect selection draft) :
    Writing.Writes q.dialect (q.writeHead selection) (q.headDraft draft) := by
  have htable : Writing.Writes q.dialect (Writing.push (q.dialect.quoteTable q.table))
      ⟨q.table.pieces, none⟩ := fun w => by
    refine Writing.WritesTo.modify ?_
    rw [ht]
    cases q.table with
    | plain n => rfl
    | within s n => simp [Table.quoted, Table.pieces, Writer.put, Writer.push, Writer.name,
        String.append_assoc]
  exact (Writing.Writes.seq (Writing.Writes.fixed [.word "SELECT", .blank] rfl rfl) <|
    Writing.Writes.seq hs <|
      Writing.Writes.seq (Writing.Writes.fixed [.blank, .word "FROM", .blank] rfl rfl)
        htable).of_eq rfl

/-- A filter is written as drafted behind ink. -/
theorem writeFilter_writesTo (hd : L.Describes q.dialect) {w : Writer} (hw : w.EndsInInk) :
    Writing.WritesTo q.dialect w q.writeFilter q.filterDraft := by
  rw [writeFilter, filterDraft]
  split
  · rfl
  · exact Writing.WritesTo.clause hd hw [.word "WHERE"] rfl rfl rfl rfl
      (Condition.list_writes q.dialect .and q.conditions)

theorem writeOrder_writes (d : Dialect) (o : String × Order) :
    Writing.Writes d (writeOrder d o) (orderDraft o) := by
  have hword : Writing.Writes d (Writing.push (" " ++ o.2.sql)) ⟨[.blank, .word o.2.sql], none⟩ :=
    Writing.Writes.fixed _ rfl (by simp [fixedText])
  exact (Writing.Writes.seq (Writing.Writes.name o.1) hword).of_eq rfl

/-- So are the orders, or what stands in for them. -/
theorem writeOrders_writesTo (hd : L.Describes q.dialect) {w : Writer} (hw : w.EndsInInk)
    {fallback : List Piece} (hf : fallback.all Piece.isFixed = true)
    (hfb : q.dialect.pageOrder? = if fallback.isEmpty then none else some (fixedText fallback)) :
    Writing.WritesTo q.dialect w q.writeOrders (q.ordersDraft fallback) := by
  have hclause {x : Writing Unit} {X : Draft} (hx : Writing.Writes q.dialect x X) :
      Writing.WritesTo q.dialect w (do Writing.keyword "ORDER BY"; Writing.space; x)
        (⟨[.blank, .word "ORDER", .blank, .word "BY", .blank], none⟩ ++ X) :=
    Writing.WritesTo.clause hd hw [.word "ORDER", .blank, .word "BY"] rfl rfl rfl rfl hx
  rw [writeOrders, ordersDraft, hfb]
  split
  · cases hfe : fallback.isEmpty with
    | true => rfl
    | false =>
      cases hpe : q.page.isEmpty with
      | true => rfl
      | false => simpa [Draft.append_of_none] using hclause (Writing.Writes.fixed fallback hf rfl)
  · exact hclause <| Writing.Writes.list Writing.Writes.comma _
      fun o _ => writeOrder_writes q.dialect o

/-- The head of a statement ends in ink. -/
theorem endsInInk_headDraft (hd : L.Describes q.dialect) {selection : Draft}
    (hf : selection.fault? = none) (w : Writer) :
    (w.putAll q.dialect (q.headDraft selection).pieces).EndsInInk := by
  have htable : ∃ n, q.table.pieces.getLast? = some (.name n) := by
    cases q.table with
    | plain n => exact ⟨n, rfl⟩
    | within s n => exact ⟨n, rfl⟩
  obtain ⟨n, hn⟩ := htable
  have hlast : (q.headDraft selection).pieces.getLast? = some (.name n) := by
    refine Draft.getLast?_pieces_append rfl (Draft.getLast?_pieces_append hf ?_)
    rw [List.getLast?_cons, List.getLast?_cons, List.getLast?_cons, hn]
    rfl
  exact hd.endsInInk_putAll w hlast rfl

/-- A clause ends in ink where each of the items that it lists does. -/
theorem isInk_clause {ps separator : List Piece} {xs : List Draft} (hne : xs ≠ [])
    (hf : (Draft.join separator xs).fault? = none)
    (h : ∀ x ∈ xs, ∃ p, x.pieces.getLast? = some p ∧ p.isInk = true) {p : Piece}
    (hp : ((⟨ps, none⟩ : Draft) ++ Draft.join separator xs).pieces.getLast? = some p) :
    p.isInk = true := by
  obtain ⟨p', hp', hink⟩ := Draft.getLast?_pieces_join hne hf h
  rw [Draft.getLast?_pieces_append rfl hp'] at hp
  exact Option.some.inj hp ▸ hink

/-- A filter ends in ink. -/
theorem isInk_filterDraft (hwell : ∀ c ∈ q.conditions, c.WellFormed) {p : Piece}
    (hp : q.filterDraft.pieces.getLast? = some p) : p.isInk = true := by
  rw [filterDraft] at hp
  split at hp
  · cases hp
  · next he =>
    exact isInk_clause (by simpa using he) (Condition.fault?_join_draft.mpr hwell)
      (List.forall_mem_map.mpr fun c hc => Condition.getLast?_draft (hwell c hc)) hp

theorem isInk_ordersDraft {fallback : List Piece}
    (hfb : ∀ p, fallback.getLast? = some p → p.isInk = true) {p : Piece}
    (hp : (q.ordersDraft fallback).pieces.getLast? = some p) : p.isInk = true := by
  rw [ordersDraft] at hp
  split at hp
  · split at hp
    · cases hp
    · next he =>
      have hne : fallback ≠ [] := fun e => he (by simp [e])
      rw [List.getLast?_append, List.getLast?_eq_some_getLast hne, Option.some_or] at hp
      exact hfb p (List.getLast?_eq_some_getLast hne ▸ hp)
  · next he =>
    refine isInk_clause (by simpa using he)
      (Draft.fault?_join_map q.orders fun _ => rfl)
      (List.forall_mem_map.mpr fun o _ => ⟨.word o.2.sql, rfl, ?_⟩) hp
    cases o.2 <;> rfl

/-- Reports aside, a statement starts with its head and its filter. -/
theorem writeStart_on (q : Query) (selection : Writing Unit) (w : Writer) :
    (q.writeStart selection).on w =
      (do q.writeHead selection; q.writeFilter : Writing Unit).on w := by
  rw [writeStart, Writing.on_bind, Writing.on_bind]
  rcases (q.writeHead selection).on w with ⟨_ | _, w'⟩
  · rfl
  · exact Writing.on_reporting _ q.writeFilter w'

/-- **A statement is started with its head and its filter**, if its table has a name. -/
theorem start_value (hd : L.Describes q.dialect)
    (ht : q.dialect.quoteTable = Table.quoted q.dialect.quoteName) {selection : Writing Unit}
    {draft : Draft} (hs : Writing.Writes q.dialect selection draft) (hf : draft.fault? = none) :
    (q.start selection).value =
      if q.table.isEmpty then .error .missingTable
      else (q.headDraft draft ++ q.filterDraft).written q.dialect := by
  rw [start]
  split
  · rfl
  · have hrun := (writeHead_writes ht hs {}).seq fun _ =>
      writeFilter_writesTo hd (endsInInk_headDraft hd hf {})
    change Except.map (fun _ => ((q.writeStart selection).on {}).2)
      ((q.writeStart selection).on {}).1 = _
    rw [writeStart_on, hrun.on_eq, Draft.outcome, Draft.written]
    cases (q.headDraft draft ++ q.filterDraft).fault? <;> rfl

/-- A table is quoted part by part in every database. -/
theorem quoteTable_eq {b : Database} (hq : q.dialect = b.dialect) :
    q.dialect.quoteTable = Table.quoted q.dialect.quoteName := hq ▸ b.quoteTable_eq

/-- **The count is the statement of its pieces.** -/
theorem buildCount_value {b : Database} (hq : q.dialect = b.dialect) :
    q.buildCount.value = q.count.statement b.dialect := by
  have hcount : Writing.Writes q.dialect (Writing.push "COUNT(*)") ⟨countPieces, none⟩ :=
    Writing.Writes.fixed _ rfl rfl
  have hs := start_value (hq ▸ b.describes) (quoteTable_eq hq) hcount rfl
  have hvalue : q.buildCount.value =
      (q.start (Writing.push "COUNT(*)")).value.map Writer.statement := by
    rw [buildCount, Traced.value_bind]
    cases (q.start (Writing.push "COUNT(*)")).value <;> rfl
  rw [hvalue, hs, count]
  split
  · rfl
  · rw [Draft.map_statement_written, hq]

/-- What a build makes of the writer that holds head and filter. -/
def tail (q : Query) (w : Writer) : Except Fault Statement :=
  match q.dialect.pageClause q.effectivePage with
  | .error fault => .error fault
  | .ok clause =>
    let w := (q.writeOrders.on w).2
    .ok (if clause.isEmpty then w else w.space.push clause).statement

/-- A build goes on from the writer that holds head and filter. -/
theorem build_value_eq (q : Query) :
    q.build.value = (q.start q.writeColumns).value.bind q.tail := by
  rw [build, Traced.value_bind]
  cases (q.start q.writeColumns).value with
  | error fault => rfl
  | ok w =>
    simp only [Traced.value_bind, Except.bind, tail, effectivePage]
    cases q.dialect.pageClause _ <;> rfl

/-- The clause for a page is written behind ink. -/
theorem putAll_pageDraft {b : Database} {w : Writer} (hw : w.EndsInInk) (p : Page) :
    w.putAll q.dialect (b.pageDraft p).pieces =
      if (fixedText (b.pagePieces p)).isEmpty then w
      else w.space.push (fixedText (b.pagePieces p)) := by
  have hempty : (fixedText (b.pagePieces p)).isEmpty = (b.pagePieces p).isEmpty := by
    obtain ⟨_ | n, _ | m⟩ := p <;> cases b <;>
      simp [Database.pagePieces, Database.limitOffsetPieces, Database.offsetFetchPieces,
        Database.limitPieces, Database.offsetPieces, Database.unlimited, fixedText]
  rw [Database.pageDraft, hempty]
  split
  · rfl
  · rw [Writer.space_of_endsInInk hw, Writer.push_fixedText _ _ (b.isFixed_pagePieces p)]
    rfl

/-- The orders and the page are written behind the ink of head and filter. -/
theorem tail_eq {b : Database} (hq : q.dialect = b.dialect) {w : Writer} (hw : w.EndsInInk) :
    q.tail w = .ok (w.putAll q.dialect ((q.ordersDraft b.fallbackPieces).pieces ++
      (b.pageDraft q.effectivePage).pieces)).statement := by
  have hd : b.lexicon.Describes q.dialect := hq ▸ b.describes
  have horders := writeOrders_writesTo hd hw b.isFixed_fallbackPieces (by rw [hq, b.pageOrder?_eq])
  have hink : (w.putAll q.dialect (q.ordersDraft b.fallbackPieces).pieces).EndsInInk :=
    hd.endsInInk_behind hw fun p => isInk_ordersDraft b.isInk_fallbackPieces
  have hclause : q.dialect.pageClause q.effectivePage =
      .ok (fixedText (b.pagePieces q.effectivePage)) := by rw [hq, b.pageClause_eq]
  rw [tail, hclause, Writer.putAll_append, putAll_pageDraft hink, horders.on_eq]

/-- **The rows are the statement of their pieces.** -/
theorem build_value {b : Database} (hq : q.dialect = b.dialect) :
    q.build.value = (b.rows q).statement b.dialect := by
  have hd : b.lexicon.Describes q.dialect := hq ▸ b.describes
  have hs := start_value hd (quoteTable_eq hq) (writeColumns_writes q) (fault?_columnsDraft q)
  rw [build_value_eq, hs, Database.rows]
  split
  · rfl
  · let start := q.headDraft q.columnsDraft ++ q.filterDraft
    change (start.written q.dialect).bind q.tail = (start ++ _).statement b.dialect
    cases hf : start.fault? with
    | some fault =>
      rw [Draft.append_of_some _ hf, Draft.written, Draft.statement, hf]
      rfl
    | none =>
      obtain ⟨hhead, hfilter⟩ := Draft.fault?_append.mp hf
      have hw : (Writer.putAll q.dialect {} start.pieces).EndsInInk := by
        rw [Draft.pieces_append _ hhead, Writer.putAll_append]
        exact hd.endsInInk_behind (endsInInk_headDraft hd (fault?_columnsDraft q) {})
          fun p => isInk_filterDraft (fault?_filterDraft.mp hfilter)
      have hrest := fault?_ordersDraft q b.fallbackPieces
      have hwritten : start.written q.dialect = .ok (Writer.putAll q.dialect {} start.pieces) := by
        rw [Draft.written, hf]
      rw [hwritten, Draft.append_of_none _ hf, Draft.append_of_none _ hrest,
        b.fault?_pageDraft]
      change q.tail _ = _
      rw [tail_eq hq hw, ← Writer.putAll_append, Writer.statement_putAll, hq, Draft.statement]

end Query

end SelectQuery
