import SelectQuery.Proofs.Sections

/-!
# Proofs/Companion — rows and their count

A query has two statements: the rows that are asked for, and the count of all rows that pass the
filter.  Both are **refused** for the same reasons (`Query.Refused`), a table without a name before
the first malformed condition; the rows have one reason more, which is what the dialect says of the
page.  Where both are made they have the same arguments and the same text from the table to the end
of the filter (`Query.scope`): what differs stands before and behind.

The inputs are `buildCount_value_eq_sections` and `build_value_eq_sections`, which give either
statement as a function of the query.
-/

namespace SelectQuery

/-! ## What text before a table does not change -/

/-- **A text behind another, or alone**: a space between them unless the first is empty or ends in
one. -/
def behind (s t : String) : String := if s = "" then t else apart s t

/-- Behind a space it does not matter what was there before. -/
theorem apart_behind {s : String} (h : s.toList.getLast? = some ' ') (t u : String) :
    apart (s ++ t) u = s ++ behind t u := by
  rw [behind]
  split
  · next ht => rw [ht, String.append_empty, apart, if_pos h]
  · next ht =>
    have hlast : (s ++ t).toList.getLast? = t.toList.getLast? := by
      have hne : t.toList ≠ [] := fun e => ht (String.toList_eq_nil_iff.mp e)
      rw [String.toList_append, List.getLast?_append, List.getLast?_eq_some_getLast hne,
        Option.some_or]
    rw [apart, apart, hlast]
    split <;> simp only [String.append_assoc]

theorem foldl_apart_behind {s : String} (h : s.toList.getLast? = some ' ') (t : String)
    (us : List String) : us.foldl apart (s ++ t) = s ++ us.foldl behind t := by
  induction us generalizing t with
  | nil => rfl
  | cons u us ih => rw [List.foldl_cons, List.foldl_cons, apart_behind h, ih]

/-- Sections are only added at the end. -/
theorem foldl_apart_eq_append (s : String) (ts : List String) :
    ∃ rest, ts.foldl apart s = s ++ rest := by
  induction ts generalizing s with
  | nil => exact ⟨"", String.append_empty.symm⟩
  | cons t ts ih =>
    obtain ⟨rest, hrest⟩ := ih (apart s t)
    obtain ⟨gap, hgap⟩ : ∃ gap, apart s t = s ++ gap := by
      rw [apart]
      split
      · exact ⟨t, rfl⟩
      · exact ⟨" " ++ t, String.append_assoc⟩
    exact ⟨gap ++ rest, by rw [List.foldl_cons, hrest, hgap, String.append_assoc]⟩

/-- A condition by itself fails with its first flaw. -/
theorem Condition.statement_eq_error {d : Dialect} {c : Condition} {fault : Fault} :
    (c.statement d).value = .error fault ↔ c.nodes.findSome? flaw? = some fault := by
  rw [statement_value_eq]
  cases c.nodes.findSome? flaw? <;> simp

/-- The first flaw among the nodes of conditions is that of the first malformed condition. -/
theorem Condition.findSome?_flaw?_eq_some {d : Dialect} {cs : List Condition} {fault : Fault} :
    (nodesAll cs).findSome? flaw? = some fault ↔ ∃ before c after, cs = before ++ c :: after ∧
      (c.statement d).value = .error fault ∧ ∀ b ∈ before, b.WellFormed := by
  simp only [findSome?_nodesAll fun _ _ => rfl, List.findSome?_eq_some_iff,
    List.findSome?_eq_none_iff, statement_eq_error, wellFormed_iff]

/-- No flaw of a condition is that of a table. -/
theorem Condition.flaw?_ne_missingTable (c : Condition) : c.flaw? ≠ some .missingTable := by
  cases c with
  | compare field op x =>
    cases x with
    | single v => rw [flaw?]; split <;> simp
    | list vs =>
      rw [flaw?]
      split
      · simp
      · split <;> split <;> simp
  | group c members => rw [flaw?]; split <;> simp
  | not inner => simp [flaw?]

namespace Query

/-- **From the table to the end of the filter.** -/
def scope (q : Query) : String := q.filterSection.foldl behind (q.dialect.quoteTable q.table)

theorem foldl_apart_head (q : Query) (selection : String) :
    q.filterSection.foldl apart (q.head selection) =
      "SELECT " ++ selection ++ " FROM " ++ q.scope :=
  foldl_apart_behind (by rw [String.toList_append, List.getLast?_append]; rfl) _ _

/-! ## Why a query is refused -/

/-- A part of the name of the table is missing. -/
def Nameless (q : Query) : Prop := q.table.name = "" ∨ q.table.schema? = some ""

/-- **Why a query is refused**: its table has no name; or it has one, and this is what is said of
the first malformed condition. -/
inductive Refused (q : Query) : Fault → Prop
  | nameless (h : q.Nameless) : Refused q .missingTable
  | malformed {before after : List Condition} {c : Condition} {fault : Fault} (h : ¬q.Nameless)
      (hc : q.conditions = before ++ c :: after) (hbefore : ∀ b ∈ before, b.WellFormed)
      (hfault : (c.statement q.dialect).value = .error fault) : Refused q fault

variable {q : Query}

theorem isEmpty_table_iff : q.table.isEmpty = true ↔ q.Nameless := by
  cases h : q.table <;> simp [Nameless, h, Table.isEmpty, Table.name, Table.schema?, or_comm]

/-- What stands in the way of a statement is why the query is refused. -/
theorem fault?_eq_some {fault : Fault} : q.fault? = some fault ↔ q.Refused fault := by
  rw [fault?]
  split
  · next he =>
    have hname := isEmpty_table_iff.mp he
    refine ⟨fun h => ?_, fun h => ?_⟩
    · cases h
      exact .nameless hname
    · cases h with
      | nameless => rfl
      | malformed h => exact absurd hname h
  · next he =>
    have hname : ¬q.Nameless := fun h => he (isEmpty_table_iff.mpr h)
    rw [Condition.findSome?_flaw?_eq_some]
    refine ⟨fun h => ?_, fun h => ?_⟩
    · obtain ⟨before, c, after, hc, hfault, hbefore⟩ := h
      exact .malformed hname hc hbefore hfault
    · cases h with
      | nameless h => exact absurd h hname
      | malformed _ hc hbefore hfault => exact ⟨_, _, _, hc, hfault, hbefore⟩

/-- Only the table can be missing. -/
theorem refused_missingTable : q.Refused .missingTable ↔ q.Nameless := by
  refine ⟨fun h => ?_, .nameless⟩
  cases h with
  | nameless h => exact h
  | malformed _ _ _ hfault =>
    obtain ⟨n, -, hn⟩ := List.exists_of_findSome?_eq_some (Condition.statement_eq_error.mp hfault)
    exact absurd hn n.flaw?_ne_missingTable

/-- **A query is accepted** if its table has a name and its conditions are well formed. -/
def Accepted (q : Query) : Prop := ¬q.Nameless ∧ ∀ c ∈ q.conditions, c.WellFormed

theorem fault?_eq_none_iff : q.fault? = none ↔ q.Accepted := by
  rw [fault?_eq_none, Accepted, ← isEmpty_table_iff, Bool.not_eq_true]

/-! ## The two statements of a query -/

theorem buildCount_eq_error {fault : Fault} :
    q.buildCount.value = .error fault ↔ q.Refused fault := by
  rw [← fault?_eq_some, buildCount_value_eq_sections]
  cases q.fault? <;> simp

-- the table comes first, whatever is wrong with the conditions
example : ({ table := .within "s" "", dialect := .sqlite, conditions := [.any []] } :
    Query).buildCount.value = .error .missingTable := rfl

theorem buildCount_eq_ok {s : Statement} :
    q.buildCount.value = .ok s ↔ q.Accepted ∧
      ⟨"SELECT COUNT(*) FROM " ++ q.scope, Condition.valuesAll q.conditions⟩ = s := by
  rw [← fault?_eq_none_iff, buildCount_value_eq_sections, foldl_apart_head]
  cases q.fault? <;> simp

/-- The rows are refused as the count is, or for what the dialect says of the page. -/
theorem build_eq_error {fault : Fault} :
    q.build.value = .error fault ↔ q.Refused fault ∨
      q.Accepted ∧ q.dialect.pageClause q.effectivePage = .error fault := by
  rw [← fault?_eq_some, ← fault?_eq_none_iff, build_value_eq_sections]
  cases q.fault? with
  | some fault => simp
  | none => cases q.dialect.pageClause q.effectivePage <;> simp [Except.map]

theorem build_eq_ok {s : Statement} :
    q.build.value = .ok s ↔ q.Accepted ∧
      ∃ clause, q.dialect.pageClause q.effectivePage = .ok clause ∧
        ⟨(q.sections clause).foldl apart (q.head q.columnsText),
          Condition.valuesAll q.conditions⟩ = s := by
  rw [← fault?_eq_none_iff, build_value_eq_sections]
  cases q.fault? with
  | some fault => simp
  | none => cases q.dialect.pageClause q.effectivePage <;> simp [Except.map]

/-- The count is made of every query that is accepted. -/
theorem exists_buildCount : (∃ t, q.buildCount.value = .ok t) ↔ q.Accepted :=
  ⟨fun ⟨_, h⟩ => (buildCount_eq_ok.mp h).1, fun h => ⟨_, buildCount_eq_ok.mpr ⟨h, rfl⟩⟩⟩

/-- So are the rows on a built-in dialect, for which no page is too much. -/
theorem exists_build {b : Database} (hq : q.dialect = b.dialect) :
    (∃ s, q.build.value = .ok s) ↔ q.Accepted := by
  have hclause := b.pageClause_eq q.effectivePage
  rw [← hq] at hclause
  exact ⟨fun ⟨_, h⟩ => (build_eq_ok.mp h).1, fun h => ⟨_, build_eq_ok.mpr ⟨h, _, hclause, rfl⟩⟩⟩

/-- On a built-in dialect the rows are refused as the count is. -/
theorem build_eq_error_iff {b : Database} (hq : q.dialect = b.dialect) {fault : Fault} :
    q.build.value = .error fault ↔ q.buildCount.value = .error fault := by
  rw [build_eq_error, buildCount_eq_error, hq, b.pageClause_eq]
  simp

/-- **Rows and count are refused alike, and made of the same filter.**  The count is refused for a
table without a name, before the first malformed condition, and for nothing else; the rows are
refused for the same, and then only for what the dialect says of the page.  Where both are made,
they agree from the table to the end of the filter; and the count depends on nothing but the table,
the dialect and the conditions. -/
theorem rows_agree_with_count (q : Query) :
    (q.buildCount.value = .error .missingTable ↔ q.Nameless) ∧
    (∀ fault, q.buildCount.value = .error fault ↔ q.Refused fault) ∧
    ((∃ t, q.buildCount.value = .ok t) ↔ q.Accepted) ∧
    (∀ fault, q.build.value = .error fault ↔ q.Refused fault ∨
      q.Accepted ∧ q.dialect.pageClause q.effectivePage = .error fault) ∧
    (∀ b : Database, q.dialect = b.dialect →
      ((∃ s, q.build.value = .ok s) ↔ ∃ t, q.buildCount.value = .ok t) ∧
      ∀ fault, q.build.value = .error fault ↔ q.buildCount.value = .error fault) ∧
    (∀ s t, q.build.value = .ok s → q.buildCount.value = .ok t → s.args = t.args ∧
      t.text = "SELECT COUNT(*) FROM " ++ q.scope ∧
      ∃ rest, s.text = "SELECT " ++ q.columnsText ++ " FROM " ++ q.scope ++ rest) ∧
    ∀ columns orders page ceiling,
      { q with columns, orders, page, ceiling }.buildCount = q.buildCount := by
  refine ⟨buildCount_eq_error.trans refused_missingTable, fun _ => buildCount_eq_error,
    exists_buildCount, fun _ => build_eq_error,
    fun b hq => ⟨(exists_build hq).trans exists_buildCount.symm, fun _ => build_eq_error_iff hq⟩,
    fun s t hs ht => ?_, fun _ _ _ _ => rfl⟩
  obtain ⟨-, rfl⟩ := buildCount_eq_ok.mp ht
  obtain ⟨-, clause, -, rfl⟩ := build_eq_ok.mp hs
  obtain ⟨rest, hrest⟩ := foldl_apart_eq_append (q.filterSection.foldl apart (q.head q.columnsText))
    (q.orderSection ++ if clause.isEmpty then [] else [clause])
  refine ⟨rfl, rfl, rest, ?_⟩
  rw [← foldl_apart_head, ← hrest, sections, List.append_assoc, List.foldl_append]

end Query

/-- A query for a page, whose limit is above the ceiling. -/
def Query.paged : Query where
  table := .within "s" "t"
  dialect := .sqlserver
  columns := ["a", "b"]
  conditions := [.compare "a" .gt (.single (.ofText "x")),
    .not (.compare "b" .eq (.single (.ofText "y")))]
  orders := [("b", .desc)]
  page := { limit := some 7 }
  ceiling := some 5

theorem Query.paged_agrees_with_count :
    paged.dialect = Database.sqlserver.dialect ∧
      (∀ fault, paged.build.value = .error fault ↔ paged.buildCount.value = .error fault) ∧
      ∃ s t, paged.build.value = .ok s ∧ paged.buildCount.value = .ok t ∧ s.args = t.args ∧
        paged.scope = "[s].[t] WHERE [a] > @p1 AND NOT ([b] = @p2)" ∧
        t.text = "SELECT COUNT(*) FROM " ++ paged.scope ∧
        (∃ rest, s.text = "SELECT " ++ paged.columnsText ++ " FROM " ++ paged.scope ++ rest) ∧
        s.text = "SELECT [a], [b] FROM [s].[t] WHERE [a] > @p1 AND NOT ([b] = @p2)" ++
          " ORDER BY [b] DESC OFFSET 0 ROWS FETCH NEXT 5 ROWS ONLY" := by
  obtain ⟨-, -, -, -, hbuiltIn, htexts, -⟩ := rows_agree_with_count paged
  obtain ⟨hargs, hcount, hrows⟩ := htexts _ _ rfl rfl
  exact ⟨rfl, (hbuiltIn .sqlserver rfl).2, _, _, rfl, rfl, hargs, by decide +kernel, hcount, hrows,
    by decide +kernel⟩

end SelectQuery
