import SelectQuery.Proofs.Flaw
import SelectQuery.Proofs.Spacing

/-!
# Proofs/Sections — the sections of a statement, on any dialect

Behind its head a statement has up to three **sections**: the filter, the orders and the page.  A
section is set apart by a space, unless what is before it ends in one (`apart`), and what that is
depends on the dialect: names and placeholders may end in anything.  `Query.build_value_eq_sections`
and `Query.buildCount_value_eq_sections` give building as a function of the query, faults included;
`Query.build_sections` is the layout of what is built.  On a built-in dialect every section ends in
ink, so that there is exactly one space before each.
-/

namespace SelectQuery

/-! ## Texts set apart -/

/-- **A text behind another**, with a space between them unless the first ends in one. -/
def apart (s t : String) : String :=
  if s.toList.getLast? = some ' ' then s ++ t else s ++ " " ++ t

/-- The text ends in something else than a space. -/
def Inked (s : String) : Prop := ∃ c, s.toList.getLast? = some c ∧ c ≠ ' '

/-- What follows the text that is set apart goes with it. -/
theorem apart_append (s t u : String) : apart s (t ++ u) = apart s t ++ u := by
  rw [apart, apart]
  split <;> simp only [String.append_assoc]

namespace Inked

variable {s t : String}

/-- What is in front makes no difference to the ink at the end. -/
theorem append (h : Inked t) (s : String) : Inked (s ++ t) := by
  obtain ⟨c, hc, hne⟩ := h
  exact ⟨c, by rw [String.toList_append, List.getLast?_append, hc, Option.some_or], hne⟩

/-- Behind ink a text is set apart by one space. -/
theorem apart_eq (h : Inked s) (t : String) : apart s t = s ++ " " ++ t := by
  obtain ⟨c, hc, hne⟩ := h
  rw [apart, hc, if_neg (by simpa using hne)]

/-- Nor does the space that sets it apart. -/
theorem of_apart (h : Inked t) (s : String) : Inked (apart s t) := by
  rw [apart]
  split
  · exact h.append s
  · exact h.append (s ++ " ")

/-- Joined texts end in ink where each of them does. -/
theorem intercalate {ts : List String} (hne : ts ≠ []) (h : ∀ t ∈ ts, Inked t) (s : String) :
    Inked (s.intercalate ts) := by
  induction ts with
  | nil => exact absurd rfl hne
  | cons t ts ih =>
    cases ts with
    | nil => exact String.intercalate_singleton ▸ h t List.mem_cons_self
    | cons u rest =>
      rw [String.intercalate_cons_cons]
      exact (ih (List.cons_ne_nil u rest) fun x hx => h x (List.mem_cons_of_mem t hx)).append _

/-- **Sections that end in ink are joined by single spaces.** -/
theorem foldl_apart {ts : List String} (hs : Inked s) (h : ∀ t ∈ ts, Inked t) :
    ts.foldl apart s = " ".intercalate (s :: ts) := by
  induction ts generalizing s with
  | nil => exact String.intercalate_singleton.symm
  | cons t ts ih =>
    have ht : Inked t := h t List.mem_cons_self
    rw [List.foldl_cons, hs.apart_eq, ih (ht.append _) fun x hx => h x (List.mem_cons_of_mem t hx),
      String.intercalate_cons_append, String.intercalate_cons_cons]

end Inked

/-- A text does not vanish by what is set behind it. -/
theorem foldl_apart_ne_empty {s : String} (h : s ≠ "") (ts : List String) :
    ts.foldl apart s ≠ "" := by
  induction ts generalizing s with
  | nil => exact h
  | cons t ts ih =>
    refine ih fun he => h ?_
    rw [apart] at he
    split at he
    · exact (String.append_eq_empty_iff.mp he).1
    · exact (String.append_eq_empty_iff.mp (String.append_eq_empty_iff.mp he).1).1

/-! ## Writing texts and sections -/

namespace Writer

theorem push_push (w : Writer) (s t : String) : (w.push s).push t = w.push (s ++ t) := by
  simp [push, String.append_assoc]

/-- What is pushed behind a space is set apart. -/
theorem push_space {w : Writer} (h : w.text ≠ "") (s : String) :
    w.space.push s = { w with text := apart w.text s } := by
  rw [space, apart]
  split
  · next hlast =>
    rw [List.getLast?_eq_none_iff, String.toList_eq_nil_iff] at hlast
    exact absurd hlast h
  · next hlast =>
    rw [if_pos hlast]
    rfl
  · next c hne hlast =>
    rw [hlast, if_neg fun e => hne (Option.some.inj e)]
    rfl

theorem push_empty (w : Writer) : w.push "" = w := by simp [push]

/-- A writer ends in ink exactly if its text does. -/
theorem endsInInk_iff {w : Writer} : w.EndsInInk ↔ Inked w.text := by
  simp only [EndsInInk, Inked, List.getLast?_eq_some_iff, ← exists_and_right]
  exact exists_comm

end Writer

namespace Writing

variable {α : Type} {x y : Writing Unit} {s t : String}

/-- **A writing prints** a text if it appends it to whatever writer and does nothing else. -/
def Prints (x : Writing Unit) (s : String) : Prop :=
  ∀ w : Writer, x.traced w = pure (.ok (), w.push s)

theorem Prints.push (s : String) : Prints (Writing.push s) s := fun _ => rfl

theorem Prints.name (d : Dialect) (s : String) : Prints (Writing.name d s) (d.quoteName s) :=
  fun _ => rfl

/-- One text after another is printed as both. -/
theorem Prints.seq (hx : Prints x s) (hy : Prints y t) : Prints (x >>= fun _ => y) (s ++ t) :=
  fun w => by rw [traced_bind, hx w, ← Writer.push_push]; exact hy _

/-- A list prints the texts of its items, joined. -/
theorem Prints.list {item : α → Writing Unit} {text : α → String} (separator : String) :
    ∀ xs : List α, (∀ x ∈ xs, Prints (item x) (text x)) →
      Prints (Writing.list separator item xs) (separator.intercalate (xs.map text))
  | [], _ => fun w => by
    rw [List.map_nil, String.intercalate_nil, Writer.push_empty]
    rfl
  | [x], h => by
    rw [List.map_singleton, String.intercalate_singleton]
    exact h x (List.mem_singleton_self x)
  | x :: y :: rest, h => by
    rw [List.map_cons, List.map_cons, String.intercalate_cons_cons, String.append_assoc]
    exact (h x List.mem_cons_self).seq <| (Prints.push separator).seq <|
      Prints.list separator (y :: rest) fun z hz => h z (List.mem_cons_of_mem x hz)

/-- **A section behind a text** is set apart from it, with a space behind its keyword. -/
theorem traced_section {w : Writer} (h : w.text ≠ "") (hs : Inked s) (ht : t = s ++ " ")
    (x : Writing Unit) : (do keyword s; space; x : Writing Unit).traced w =
      x.traced { w with text := apart w.text t } := by
  let w' : Writer := { w with text := apart w.text s }
  have hkeyword : (keyword s).traced w = pure (.ok (), w') :=
    traced_modify (Writer.push_space h s)
  have hspace : space.traced w' = pure (.ok (), w'.push " ") :=
    traced_modify (Writer.space_of_endsInInk (Writer.endsInInk_iff.mpr (hs.of_apart w.text)))
  rw [traced_bind, hkeyword, pure_bind]
  dsimp only
  rw [traced_bind, hspace, pure_bind, ht, apart_append]
  rfl

/-- A section that is printed is set apart as a whole. -/
theorem Prints.section {w : Writer} (h : w.text ≠ "") (hs : Inked s) (ht : t = s ++ " ")
    {u : String} (hx : Prints x u) : (do keyword s; space; x : Writing Unit).traced w =
      pure (.ok (), { w with text := apart w.text (t ++ u) }) := by
  rw [traced_section h hs ht, hx, apart_append]
  rfl

end Writing

/-! ## The sections of a statement -/

namespace Query

/-- The columns by name, or a star for all of them. -/
def columnsText (q : Query) : String :=
  if q.columns.isEmpty then "*" else ", ".intercalate (q.columns.map q.dialect.quoteName)

/-- **From the start of a statement to its table.** -/
def head (q : Query) (selection : String) : String :=
  "SELECT " ++ selection ++ " FROM " ++ q.dialect.quoteTable q.table

/-- The filter, if there are conditions. -/
def filterSection (q : Query) : List String :=
  if q.conditions.isEmpty then []
  else ["WHERE " ++ " AND ".intercalate (Condition.texts q.dialect 1 q.conditions)]

/-- The orders, if there are any; else what the dialect puts before a page that is asked for. -/
def orderSection (q : Query) : List String :=
  if q.orders.isEmpty then
    if q.page.isEmpty then [] else (q.dialect.pageOrder?.map ("ORDER BY " ++ ·)).toList
  else
    ["ORDER BY " ++ ", ".intercalate
      (q.orders.map fun o => q.dialect.quoteName o.1 ++ " " ++ o.2.sql)]

/-- **The sections of a statement** with a clause for the page, behind its head. -/
def sections (q : Query) (clause : String) : List String :=
  q.filterSection ++ q.orderSection ++ if clause.isEmpty then [] else [clause]

/-- **What stands in the way of a statement**: a table without a name before the first flaw. -/
def fault? (q : Query) : Option Fault :=
  if q.table.isEmpty then some .missingTable
  else (Condition.nodesAll q.conditions).findSome? Condition.flaw?

/-- Nothing stands in the way of a query with a table whose conditions are well formed. -/
theorem fault?_eq_none {q : Query} :
    q.fault? = none ↔ q.table.isEmpty = false ∧ ∀ c ∈ q.conditions, c.WellFormed := by
  rw [fault?, ← Condition.findSome?_flaw?_eq_none]
  split <;> simp_all

variable {q : Query} {w : Writer}

theorem head_ne_empty (q : Query) (selection : String) : q.head selection ≠ "" := by
  simp [head, String.append_eq_empty_iff]

theorem writeColumns_prints (q : Query) : Writing.Prints q.writeColumns q.columnsText := by
  rw [writeColumns, columnsText]
  split
  · exact Writing.Prints.push "*"
  · exact Writing.Prints.list ", " q.columns fun c _ => Writing.Prints.name q.dialect c

theorem writeHead_prints {selection : Writing Unit} {s : String}
    (h : Writing.Prints selection s) : Writing.Prints (q.writeHead selection) (q.head s) := by
  rw [head, String.append_assoc, String.append_assoc]
  exact (Writing.Prints.push "SELECT ").seq <| h.seq <|
    (Writing.Prints.push " FROM ").seq (Writing.Prints.push (q.dialect.quoteTable q.table))

theorem writeOrder_prints (d : Dialect) (o : String × Order) :
    Writing.Prints (writeOrder d o) (d.quoteName o.1 ++ " " ++ o.2.sql) := by
  rw [String.append_assoc]
  exact (Writing.Prints.name d o.1).seq (Writing.Prints.push (" " ++ o.2.sql))

/-- The orders are written as a section, if at all. -/
theorem writeOrders_traced (h : w.text ≠ "") : q.writeOrders.traced w =
    pure (.ok (), { w with text := q.orderSection.foldl apart w.text }) := by
  have hkeyword : Inked "ORDER BY" := ⟨'Y', rfl, by decide⟩
  rw [writeOrders, orderSection]
  split
  · cases hfb : q.dialect.pageOrder? with
    | none => cases q.page.isEmpty <;> rfl
    | some order =>
      cases hpage : q.page.isEmpty with
      | true => rfl
      | false => exact (Writing.Prints.push order).section h hkeyword rfl
  · exact (Writing.Prints.list ", " q.orders fun o _ => writeOrder_prints q.dialect o).section h
      hkeyword rfl

/-- Behind the keyword a filter is the list of its conditions. -/
theorem writeFilter_traced (hne : q.conditions ≠ []) (h : w.text ≠ "") :
    q.writeFilter.traced w =
      (Writing.list Combinator.and.separator (Condition.write q.dialect) q.conditions).traced
        { w with text := apart w.text "WHERE " } := by
  have hkeyword : Inked "WHERE" := ⟨'E', rfl, by decide⟩
  rw [writeFilter, if_neg (by simpa using hne)]
  exact Writing.traced_section h hkeyword rfl _

/-- A filter with a flaw fails with the first one. -/
theorem writeFilter_of_flaw (h : w.text ≠ "") {fault : Fault}
    (hfault : (Condition.nodesAll q.conditions).findSome? Condition.flaw? = some fault) :
    ∃ w', q.writeFilter.traced w = pure (.error fault, w') := by
  have hne : q.conditions ≠ [] := fun e => by rw [e] at hfault; cases hfault
  rw [writeFilter_traced hne h, Condition.list_writes, Draft.outcome,
    Condition.fault?_join_draft_eq, hfault]
  exact ⟨_, rfl⟩

/-- A filter without a flaw is written as a section, with the values of its conditions. -/
theorem writeFilter_of_wellFormed (h : w.text ≠ "") (hn : w.next = 1)
    (hwell : ∀ c ∈ q.conditions, c.WellFormed) :
    q.writeFilter.traced w = pure (.ok (), {
      text := q.filterSection.foldl apart w.text
      args := w.args ++ Condition.valuesAll q.conditions
      next := w.next + (Condition.valuesAll q.conditions).length }) := by
  by_cases hne : q.conditions = []
  · rw [writeFilter, filterSection, hne, Condition.valuesAll, List.append_nil]
    rfl
  · let w' : Writer := { w with text := apart w.text "WHERE " }
    have hspells := Condition.spells_join (d := q.dialect) .and hwell w'.next
    have hnext : w'.next = 1 := hn
    rw [writeFilter_traced hne h,
      (Condition.list_writes q.dialect .and q.conditions).traced_eq
        (Condition.fault?_join_draft.mpr hwell) hspells,
      Writer.extend, filterSection, if_neg (by simpa using hne), List.foldl_cons, List.foldl_nil,
      apart_append, hnext]
    rfl

/-- What is reported of a query that is refused. -/
def refusal (q : Query) (fault : Fault) : List Event :=
  if q.table.isEmpty then [] else [.filterFailed q.dialect.name q.table.name fault]

/-- **A statement is started with its head and its filter**, on any dialect. -/
theorem start_eq {selection : Writing Unit} {s : String} (hs : Writing.Prints selection s) :
    q.start selection = match q.fault? with
      | some fault => ⟨.error fault, q.refusal fault⟩
      | none => pure (.ok {
        text := q.filterSection.foldl apart (q.head s)
        args := Condition.valuesAll q.conditions
        next := 1 + (Condition.valuesAll q.conditions).length }) := by
  simp only [start, fault?, refusal]
  split
  · rfl
  · -- the head has no placeholders, so the filter is numbered from one
    let w : Writer := { text := q.head s }
    have hw : w.text ≠ "" := q.head_ne_empty s
    have hhead : (q.writeHead selection).traced {} = pure (.ok (), w) := by
      rw [writeHead_prints hs]
      simp [Writer.push, w]
    rw [writeStart, Writing.traced_bind, hhead, pure_bind]
    dsimp only
    rw [Writing.traced_reporting]
    cases hfault : (Condition.nodesAll q.conditions).findSome? Condition.flaw? with
    | some fault =>
      obtain ⟨w', hw'⟩ := writeFilter_of_flaw hw hfault
      rw [hw']
      rfl
    | none =>
      rw [writeFilter_of_wellFormed hw rfl (Condition.findSome?_flaw?_eq_none.mp hfault)]
      rfl

/-- **The count as a function of the query**, on any dialect. -/
theorem buildCount_value_eq_sections (q : Query) :
    q.buildCount.value = match q.fault? with
      | some fault => .error fault
      | none => .ok ⟨q.filterSection.foldl apart (q.head "COUNT(*)"),
          Condition.valuesAll q.conditions⟩ := by
  rw [buildCount, start_eq (Writing.Prints.push "COUNT(*)")]
  cases q.fault? <;> rfl

/-- The page is written as a section, if there is anything to say. -/
theorem push_clause (h : w.text ≠ "") (clause : String) :
    (if clause.isEmpty then w else w.space.push clause) =
      { w with text := (if clause.isEmpty then [] else [clause]).foldl apart w.text } := by
  split
  · rfl
  · exact Writer.push_space h clause

/-- **The rows as a function of the query**, on any dialect: what stands in the way comes before
what the dialect says of the page. -/
theorem build_value_eq_sections (q : Query) :
    q.build.value = match q.fault? with
      | some fault => .error fault
      | none => (q.dialect.pageClause q.effectivePage).map fun clause =>
          ⟨(q.sections clause).foldl apart (q.head q.columnsText),
            Condition.valuesAll q.conditions⟩ := by
  rw [build_value_eq, start_eq (writeColumns_prints q)]
  cases q.fault? with
  | some fault => rfl
  | none =>
    have hfilter := foldl_apart_ne_empty (q.head_ne_empty q.columnsText) q.filterSection
    have horders := foldl_apart_ne_empty hfilter q.orderSection
    change tail q _ = _
    rw [tail, Writing.on]
    cases q.dialect.pageClause q.effectivePage with
    | error fault => rfl
    | ok clause =>
      dsimp only [Except.map]
      rw [writeOrders_traced hfilter, push_clause horders, sections, List.foldl_append,
        List.foldl_append]
      rfl

end Query

/-! ## Single spaces on built-in dialects -/

section Ink

variable {L : Lexicon} {d : Dialect}

/-- Pieces that end in ink spell a text that does. -/
theorem Lexicon.Describes.inked_of_spells (hd : L.Describes d) {ps : List Piece} {s : String}
    {vs : List Value} (h : Spells d 1 ps s vs) {p : Piece} (hp : ps.getLast? = some p)
    (hink : p.isInk = true) : Inked s := by
  have hw := Writer.endsInInk_iff.mp (hd.endsInInk_putAll {} hp hink)
  rw [Writer.putAll_eq_extend h] at hw
  simpa [Writer.extend] using hw

end Ink

namespace Query

variable {q : Query} {b : Database}

theorem inked_head (hq : q.dialect = b.dialect) (selection : String) :
    Inked (q.head selection) := by
  have hquote : ∀ n, Inked (q.dialect.quoteName n) := fun n =>
    Lexicon.Describes.inked_of_spells (hq ▸ b.describes) (Spells.name n) rfl rfl
  have htable : Inked (q.dialect.quoteTable q.table) := by
    rw [quoteTable_eq hq]
    cases q.table with
    | plain n => exact hquote n
    | within s n => exact (hquote n).append _
  exact htable.append _

/-- A filter ends in ink on a built-in dialect. -/
theorem inked_filterSection (hq : q.dialect = b.dialect)
    (hwell : ∀ c ∈ q.conditions, c.WellFormed) : ∀ t ∈ q.filterSection, Inked t := by
  rw [filterSection]
  split
  · simp
  · next he =>
    have hspells := Condition.spells_join (d := q.dialect) .and hwell 1
    obtain ⟨p, hp, hink⟩ := Draft.getLast?_pieces_join (by simpa using he)
      (Condition.fault?_join_draft.mpr hwell)
      (List.forall_mem_map.mpr fun c hc => Condition.getLast?_draft (hwell c hc))
    have htexts := Lexicon.Describes.inked_of_spells (hq ▸ b.describes) hspells hp hink
    exact List.forall_mem_singleton.mpr (htexts.append "WHERE ")

/-- So do the orders. -/
theorem inked_orderSection (hq : q.dialect = b.dialect) : ∀ t ∈ q.orderSection, Inked t := by
  have hfallback : ∀ order, q.dialect.pageOrder? = some order → Inked order := by
    intro order h
    rw [hq] at h
    cases b <;> cases h
    exact ⟨')', rfl, by decide⟩
  have hdirection : ∀ o : Order, Inked o.sql := fun o => by
    cases o <;> exact ⟨'C', rfl, by decide⟩
  rw [orderSection]
  split
  · split
    · simp
    · simp only [Option.mem_toList, Option.map_eq_some_iff]
      rintro t ⟨order, horder, rfl⟩
      exact (hfallback order horder).append _
  · next he =>
    have hne : q.orders.map (fun o => q.dialect.quoteName o.1 ++ " " ++ o.2.sql) ≠ [] := by
      simpa using he
    have hlist := Inked.intercalate hne
      (List.forall_mem_map.mpr fun o _ => (hdirection o.2).append _) ", "
    exact List.forall_mem_singleton.mpr (hlist.append "ORDER BY ")

end Query

namespace Database

variable {b : Database} {p : Page}

theorem isInk_pagePieces {x : Piece} (h : (b.pagePieces p).getLast? = some x) :
    x.isInk = true := by
  have hnumber (n : Nat) : (Piece.word n.repr).isInk = true := isClean_toString n
  have hwords : ∀ s ∈ ["ROWS", "ONLY"], (Piece.word s).isInk = true := by decide
  obtain ⟨_ | n, _ | m⟩ := p <;> cases b <;>
    simp [pagePieces, limitOffsetPieces, offsetFetchPieces, limitPieces, offsetPieces,
      unlimited] at h <;> subst h <;> simp [hnumber, hwords]

/-- The clause for a page ends in ink, if it says anything. -/
theorem inked_pageClause {clause : String} (h : b.dialect.pageClause p = .ok clause)
    (hne : clause ≠ "") : Inked clause := by
  rw [pageClause_eq] at h
  cases h
  have hpieces : b.pagePieces p ≠ [] := fun e => hne (by rw [e]; rfl)
  have hlast := List.getLast?_eq_some_getLast hpieces
  exact b.describes.inked_of_spells (Spells.fixed _ (b.isFixed_pagePieces p) rfl) hlast
    (isInk_pagePieces hlast)

end Database

namespace Query

end Query

/-- A query whose table ends in a space, on a dialect that does not quote. -/
def Query.bare : Query where
  table := .plain "t "
  dialect := {
    name := "bare"
    quoteName := id
    placeholder k := ":" ++ toString k
    pageClause p := .ok (limitOffset none p)
    pageOrder? := some "rank " }
  conditions := [.compare "a" .between (.list [.ofText "x", .ofText "y"]),
    .not (.compare "b" .gte (.single (.ofText "z")))]
  page := { limit := some 9 }
  ceiling := some 4

end SelectQuery
