import SelectQuery.Proofs.Rendering
import SelectQuery.Proofs.Spacing

/-!
# Proofs/Placeholder — placeholders and arguments in step

A reader that passes over quoted names finds the placeholders of a statement in the order of their
numbers, as many as there are arguments (`Database.Aligned`).  The names may hold anything, also
what looks like a placeholder.  How many there are is known before anything is written, because a
comparison has a mark for each value of its operand and nothing else has one.
-/

namespace SelectQuery

/-! ## Counting marks -/

/-- Marks stand in the items of a list, not in what separates them. -/
theorem arguments_join {separator : List Piece} (hs : arguments separator = []) {xs : List Draft}
    (hf : ∀ x ∈ xs, x.fault? = none) :
    arguments (Draft.join separator xs).pieces = xs.flatMap fun x => arguments x.pieces := by
  induction xs using Draft.join.induct with
  | case1 => rfl
  | case2 x => simp [Draft.join]
  | case3 x y rest ih =>
    have hrest := ih fun z hz => hf z (List.mem_cons_of_mem x hz)
    rw [Draft.pieces_join_cons_cons (hf x List.mem_cons_self), arguments_append, arguments_append,
      hs, hrest, List.nil_append]
    rfl

namespace Condition

/-- Conditions side by side have a mark for each of their placeholders. -/
theorem length_arguments_join {cs : List Condition} (h : ∀ c ∈ cs, c.WellFormed) :
    (arguments (Draft.join Combinator.and.pieces (cs.map draft)).pieces).length =
      placeholdersAll cs := by
  -- the arguments are the same on every dialect, so any of them will do
  rw [(spells_join (d := .mysql) .and h 1).args, length_valuesAll]

/-- **A condition has as many marks as it has placeholders.** -/
theorem length_arguments_draft {c : Condition} (h : c.WellFormed) :
    (arguments c.draft.pieces).length = c.placeholders := by
  rw [(spells_draft (d := .mysql) h 1).args, length_values]

end Condition

/-! ## The marks of a statement -/

namespace Query

variable {q : Query}

/-- Columns have no arguments. -/
theorem arguments_columnsDraft (q : Query) : arguments q.columnsDraft.pieces = [] := by
  rw [columnsDraft]
  split
  · rfl
  · rw [arguments_join rfl (List.forall_mem_map.mpr fun _ _ => rfl), List.flatMap_map]
    exact List.flatMap_eq_nil_iff.mpr fun _ _ => rfl

/-- A head has those of its selection, and so none where that has none. -/
theorem arguments_headDraft (q : Query) {selection : Draft} (hf : selection.fault? = none)
    (h : arguments selection.pieces = []) : arguments (q.headDraft selection).pieces = [] := by
  have htable : arguments q.table.pieces = [] := by cases q.table <;> rfl
  rw [headDraft, Draft.pieces_append_mk, Draft.pieces_append _ hf, arguments_append,
    arguments_append, h]
  exact htable

/-- Orders have no arguments, nor has what stands in for them. -/
theorem arguments_ordersDraft (q : Query) {fallback : List Piece} (h : arguments fallback = []) :
    arguments (q.ordersDraft fallback).pieces = [] := by
  rw [ordersDraft]
  split
  · split
    · rfl
    · exact h
  · rw [Draft.pieces_append_mk, arguments_append,
      arguments_join rfl (List.forall_mem_map.mpr fun _ _ => rfl), List.flatMap_map]
    exact List.flatMap_eq_nil_iff.mpr fun _ _ => rfl

/-- The marks of a filter are those of its conditions. -/
theorem length_arguments_filterDraft (hwell : ∀ c ∈ q.conditions, c.WellFormed) :
    (arguments q.filterDraft.pieces).length = Condition.placeholdersAll q.conditions := by
  rw [filterDraft]
  split
  · next he =>
    rw [List.isEmpty_iff.mp he]
    rfl
  · rw [← Condition.length_arguments_join hwell, Draft.pieces_append_mk, arguments_append]
    rfl

/-- A count has an argument for each placeholder of its conditions. -/
theorem length_arguments_count (hf : q.count.fault? = none) :
    (arguments q.count.pieces).length = Condition.placeholdersAll q.conditions := by
  rw [pieces_count hf, arguments_append, q.arguments_headDraft rfl rfl,
    ← length_arguments_filterDraft (fault?_count.mp hf).2]
  rfl

end Query

namespace Database

/-- Blanks and words have no arguments. -/
theorem arguments_of_isFixed {ps : List Piece} (h : ps.all Piece.isFixed = true) :
    arguments ps = [] := by
  induction ps with
  | nil => rfl
  | cons p ps ih => cases p <;> simp_all [Piece.isFixed, arguments, Token.marks]

/-- The clause for a page has none: its numbers are words. -/
theorem arguments_pageDraft (b : Database) (p : Page) : arguments (b.pageDraft p).pieces = [] := by
  rw [pageDraft]
  split
  · rfl
  · exact arguments_of_isFixed (b.isFixed_pagePieces p)

/-- Rows have an argument for each placeholder of their conditions. -/
theorem length_arguments_rows {b : Database} {q : Query} (hf : (b.rows q).fault? = none) :
    (arguments (b.rows q).pieces).length = Condition.placeholdersAll q.conditions := by
  have hfallback := arguments_of_isFixed b.isFixed_fallbackPieces
  rw [pieces_rows hf, arguments_append, arguments_append, arguments_append,
    q.arguments_headDraft q.fault?_columnsDraft q.arguments_columnsDraft,
    q.arguments_ordersDraft hfallback, arguments_pageDraft,
    ← Query.length_arguments_filterDraft (fault?_rows.mp hf).2]
  simp

/-! ## In step -/

/-- The placeholders of a text from left to right, without what stands in quoted names; none if
a name is never closed. -/
def scan (b : Database) (text : String) : Option (List String) :=
  (b.lexicon.lex text.toList).map Token.marks

/-- **Placeholders and arguments in step:** there are `n` arguments, and the placeholders in the
text are those with the numbers from one to `n`. -/
structure Aligned (b : Database) (s : Statement) (n : Nat) : Prop where
  args : s.args.length = n
  scan : b.scan s.text = some ((List.range' 1 n).map b.dialect.placeholder)

/-- **A statement that reads back has aligned placeholders**, one for each of its marks. -/
theorem Reads.aligned {b : Database} {s : Statement} {ts : List (Token Value)}
    (h : b.Reads s ts) : b.Aligned s (Token.marks ts).length := by
  refine ⟨by rw [h.args], ?_⟩
  rw [Database.scan, h.lex, Option.map_some, Token.marks_number]

/-- **Placeholders and arguments are in step** in every statement, whatever the names: there are as
many of either as the conditions have placeholders. -/
theorem placeholders_aligned (b : Database) :
    (∀ (q : Query) (s : Statement), q.dialect = b.dialect →
      q.build.value = .ok s ∨ q.buildCount.value = .ok s →
      b.Aligned s (Condition.placeholdersAll q.conditions)) ∧
    ∀ (c : Condition) (s : Statement), (c.statement b.dialect).value = .ok s →
      b.Aligned s c.placeholders := by
  refine ⟨fun q s hq h => ?_, fun c s h => ?_⟩
  · rcases h with h | h
    · obtain ⟨hf, hr⟩ := reads_rows hq h
      exact length_arguments_rows hf ▸ hr.aligned
    · obtain ⟨hf, hr⟩ := reads_count hq h
      exact Query.length_arguments_count hf ▸ hr.aligned
  · obtain ⟨hwell, hr⟩ := reads_condition h
    exact Condition.length_arguments_draft hwell ▸ hr.aligned

end Database

/-- A query whose names look like placeholders, or hold the quotes themselves. -/
def Query.lookalikes : Query where
  table := .plain "$1"
  dialect := .postgresql
  columns := ["a\"$2"]
  conditions := [.any [.compare "?" .between (.list [.ofText "x", .ofText "y"]),
    .not (.compare "\"" .eq (.single (.ofText "$3")))]]

theorem Query.lookalikes_aligned :
    (∃ s, lookalikes.build.value = .ok s ∧ Database.postgresql.Aligned s 3) ∧
      (∃ s, lookalikes.buildCount.value = .ok s ∧ Database.postgresql.Aligned s 3) ∧
        ∃ s, ((Condition.all lookalikes.conditions).statement .postgresql).value = .ok s ∧
          Database.postgresql.Aligned s 3 :=
  have h := Database.placeholders_aligned .postgresql
  ⟨⟨_, rfl, h.1 lookalikes _ rfl (.inl rfl)⟩, ⟨_, rfl, h.1 lookalikes _ rfl (.inr rfl)⟩,
    _, rfl, h.2 (.all lookalikes.conditions) _ rfl⟩

end SelectQuery
