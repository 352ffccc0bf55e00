import SelectQuery.Proofs.Reader
import SelectQuery.Proofs.Spacing

/-!
# Proofs/Recovery — a statement gives its query back

A reader who takes a statement apart clause by clause finds the columns, the table, the conditions,
the orders and the page that it was built from (`Database.recover_build`), whatever names there are.
Two things are lost, because different queries write them alike: how a group of one would have
combined its members (`Condition.normal`), and some pages (`Database.canonicalPage`).  So two
queries with the same statement differ in nothing else.
-/

namespace SelectQuery

/-! ## Conditions from what is read -/

namespace Condition

mutual

/-- The condition with `AND` for every combinator that has nothing to combine. -/
def normal : Condition → Condition
  | compare field op operand => compare field op operand
  | group c members => group (if members.length = 1 then .and else c) (normals members)
  | not inner => not inner.normal

/-- The conditions with `AND` for every combinator that has nothing to combine. -/
def normals : List Condition → List Condition
  | [] => []
  | c :: cs => c.normal :: normals cs

end

theorem normals_eq_map (cs : List Condition) : normals cs = cs.map normal := by
  induction cs with
  | nil => rfl
  | cons c cs ih => rw [normals, ih, List.map_cons]

end Condition

namespace Expr

mutual

/-- The condition that is read as this expression. -/
def condition : Expr → Condition
  | test field op operand => .compare field op operand
  | not (paren e) => .not e.condition
  | not e => .not e.condition
  | paren (chain c es) => .group c (conditions es)
  | paren e => .group .and [e.condition]
  | chain c es => .group c (conditions es)

/-- The conditions that are read as these expressions. -/
def conditions : List Expr → List Condition
  | [] => []
  | e :: es => e.condition :: conditions es

end

theorem conditions_eq_map (es : List Expr) : conditions es = es.map condition := by
  induction es with
  | nil => rfl
  | cons e es ih => rw [conditions, ih, List.map_cons]

/-- **What a condition is read as gives it back**, but for the combinators of groups of one. -/
theorem condition_expr (c : Condition) : c.expr.condition = c.normal := by
  induction c using Condition.induction with
  | compare field op operand => rfl
  | not inner ih => rw [Condition.expr, condition, ih, Condition.normal]
  | group c members ih =>
    rcases members with _ | ⟨m, _ | ⟨m', ms⟩⟩
    · rfl
    · have hm := ih m (List.mem_singleton_self m)
      have hgroup : (Expr.paren m.expr).condition = .group .and [m.expr.condition] := by
        cases m <;> rfl
      rw [Condition.expr, Condition.exprs, Condition.exprs, joined, hgroup, hm]
      rfl
    · have hmap : ((m :: m' :: ms).map Condition.expr).map condition =
          (m :: m' :: ms).map Condition.normal := by
        rw [List.map_map]
        exact List.map_congr_left ih
      have hgroup : (Condition.group c (m :: m' :: ms)).expr.condition =
          .group c (conditions (Condition.exprs (m :: m' :: ms))) := rfl
      rw [hgroup, conditions_eq_map, Condition.exprs_eq_map, hmap, ← Condition.normals_eq_map]
      rfl

end Expr

/-! ## Reading a statement clause by clause -/

/-- What rows are asked for, as far as a statement says. -/
structure Selection where
  columns : List String
  table : Table
  conditions : List Condition
  orders : List (String × Order)
  page : Page

namespace Reading

/-- A name. -/
def name : Reading String
  | .name s :: rest => some (s, rest)
  | _ => none

/-- The columns; none stands for all of them. -/
def columns : Reading (List String)
  | .word "SELECT" :: .word "*" :: rest => some ([], rest)
  | .word "SELECT" :: ts => sepBy "," name ts
  | _ => none

/-- The table. -/
def table : Reading Table
  | .word "FROM" :: .name s :: .word "." :: .name n :: rest => some (.within s n, rest)
  | .word "FROM" :: .name n :: rest => some (.plain n, rest)
  | _ => none

/-- The conditions. -/
def filter : Reading (List Condition)
  | .word "WHERE" :: ts =>
    (links Combinator.and.order .and [] ts).map fun (es, rest) => (es.map Expr.condition, rest)
  | ts => some ([], ts)

/-- A field and its direction. -/
def order : Reading (String × Order)
  | .name s :: .word w :: rest =>
    ([Order.asc, .desc].find? fun o => o.sql == w).map fun o => ((s, o), rest)
  | _ => none

/-- The orders; rows that are ordered by no field have none. -/
def orders : Reading (List (String × Order))
  | .word "ORDER" :: .word "BY" ::
      .word "(" :: .word "SELECT" :: .word "NULL" :: .word ")" :: rest => some ([], rest)
  | .word "ORDER" :: .word "BY" :: ts => sepBy "," order ts
  | ts => some ([], ts)

/-- A number. -/
def number (w : String) : UInt64 := .ofNat (Nat.ofDigitChars 10 w.toList 0)

/-- The page, which ends the statement. -/
def page : List (Token Value) → Option Page
  | [] => some {}
  | [.word "LIMIT", .word n] => some { limit := some (number n) }
  | [.word "LIMIT", .word n, .word "OFFSET", .word m] =>
    some { limit := some (number n), offset := some (number m) }
  | [.word "LIMIT", .word "-", .word "1", .word "OFFSET", .word m] =>
    some { offset := some (number m) }
  | [.word "OFFSET", .word m] => some { offset := some (number m) }
  | [.word "OFFSET", .word m, .word "ROWS"] => some { offset := some (number m) }
  | [.word "OFFSET", .word m, .word "ROWS", .word "FETCH", .word "NEXT", .word n, .word "ROWS",
      .word "ONLY"] => some { limit := some (number n), offset := some (number m) }
  | _ => none

/-- A whole statement. -/
def selection (ts : List (Token Value)) : Option Selection := do
  let (columns, ts) ← columns ts
  let (table, ts) ← table ts
  let (conditions, ts) ← filter ts
  let (orders, ts) ← orders ts
  let page ← page ts
  return { columns, table, conditions, orders, page }

end Reading

namespace Database

/-- The page that is written like this one: MySQL writes the greatest limit for none before an
offset, and SQL Server the offset zero for none behind a limit. -/
def canonicalPage : Database → Page → Page
  | mysql, { limit := none, offset := some m } =>
    { limit := some 18446744073709551615, offset := some m }
  | sqlserver, { limit := some n, offset := none } => { limit := some n, offset := some 0 }
  | _, p => p

end Database

namespace Reading

/-- A number is read back from its digits. -/
theorem number_repr (n : UInt64) : number n.toNat.repr = n := by
  rw [number, Nat.toList_repr, Nat.ofDigitChars_ten_toDigits, UInt64.ofNat_toNat]

/-- **A page is read as the one that is written like it.** -/
theorem page_pageDraft (b : Database) (p : Page) :
    page (tokens (b.pageDraft p).pieces) = some (b.canonicalPage p) := by
  have hmost : number "18446744073709551615" = 18446744073709551615 := rfl
  have hzero : number (Nat.repr 0) = 0 := number_repr 0
  obtain ⟨_ | n, _ | m⟩ := p <;> cases b <;>
    simp [Database.pageDraft, Database.pagePieces, Database.limitOffsetPieces,
      Database.offsetFetchPieces, Database.limitPieces, Database.offsetPieces, Database.unlimited,
      page, Database.canonicalPage, number_repr, hmost, hzero]

/-! ## Where clauses begin -/

/-- What comes next, if anything does, is one of these words. -/
def Opens (ws : List String) (ts : List (Token Value)) : Prop :=
  ∀ t ∈ ts.head?, ∃ w ∈ ws, t = .word w

/-- What may open with some words opens with no other. -/
theorem Opens.ne {ws : List String} {ts : List (Token Value)} (h : Opens ws ts) {w : String}
    (hw : w ∉ ws) : ts.head? ≠ some (.word w) := by
  intro heq
  obtain ⟨w', hmem, e⟩ := h _ heq
  exact hw (Token.word.inj e ▸ hmem)

/-- A clause before other clauses. -/
theorem Opens.before {w : String} {ws : List String} {ts us : List (Token Value)}
    (ht : Opens [w] ts) (hu : Opens ws us) : Opens (w :: ws) (ts ++ us) := by
  cases ts with
  | nil =>
    intro t ht
    obtain ⟨w', hmem, e⟩ := hu t ht
    exact ⟨w', List.mem_cons_of_mem w hmem, e⟩
  | cons t' ts =>
    intro t hmem
    obtain ⟨w', hw', e⟩ := ht t hmem
    exact ⟨w', List.mem_cons.mpr (.inl (List.mem_singleton.mp hw')), e⟩

/-- A clause for a page opens with `LIMIT` or `OFFSET`, if there is one. -/
theorem opens_page (b : Database) (p : Page) :
    Opens ["LIMIT", "OFFSET"] (tokens (b.pageDraft p).pieces) := by
  obtain ⟨_ | n, _ | m⟩ := p <;> cases b <;>
    simp [Opens, Database.pageDraft, Database.pagePieces, Database.limitOffsetPieces,
      Database.offsetFetchPieces, Database.limitPieces, Database.offsetPieces, Database.unlimited]

/-- Orders open with `ORDER`. -/
theorem opens_orders (q : Query) (fallback : List Piece) :
    Opens ["ORDER"] (tokens (q.ordersDraft fallback).pieces) := by
  rw [Query.ordersDraft]
  split
  · split <;> simp [Opens]
  · simp [Opens]

/-- A filter opens with `WHERE`. -/
theorem opens_filter (q : Query) : Opens ["WHERE"] (tokens q.filterDraft.pieces) := by
  rw [Query.filterDraft]
  split <;> simp [Opens]

/-! ## Every clause is read back -/

variable {q : Query} {rest : List (Token Value)}

/-- A list of names or fields begins with a name. -/
theorem head?_join {α : Type} {separator : List Piece} {draft : α → Draft} {xs : List α}
    (hne : xs ≠ []) (h : ∀ x, ∃ s, (tokens (draft x).pieces).head? = some (.name s))
    (hf : ∀ x, (draft x).fault? = none) :
    ∃ s, (tokens (Draft.join separator (xs.map draft)).pieces ++ rest).head? = some (.name s) := by
  match xs, hne with
  | [x], _ =>
    obtain ⟨s, hs⟩ := h x
    exact ⟨s, by rw [List.head?_append, List.map_singleton, Draft.join, hs]; rfl⟩
  | x :: y :: xs, _ =>
    obtain ⟨s, hs⟩ := h x
    refine ⟨s, ?_⟩
    rw [List.map_cons, List.map_cons, Draft.pieces_join_cons_cons (hf x), tokens_append,
      List.append_assoc, List.head?_append, hs]
    rfl

/-- **The columns are read back**, up to the keyword before the table. -/
theorem columns_draft (q : Query) (rest : List (Token Value)) :
    columns (.word "SELECT" :: (tokens q.columnsDraft.pieces ++ .word "FROM" :: rest)) =
      some (q.columns, .word "FROM" :: rest) := by
  rw [Query.columnsDraft]
  split
  · next he =>
    rw [List.isEmpty_iff.mp he]
    rfl
  · next he =>
    let ts := tokens (Draft.join commaPieces (q.columns.map fun c => ⟨[.name c], none⟩)).pieces ++
      .word "FROM" :: rest
    have hne : q.columns ≠ [] := by simpa using he
    have hlist : sepBy "," name ts = some (q.columns.map id, .word "FROM" :: rest) :=
      sepBy_join rfl hne (fun _ _ => rfl) (fun _ _ _ _ => rfl) (by simp)
    obtain ⟨s, hs⟩ : ∃ s, ts.head? = some (.name s) :=
      head?_join hne (fun c => ⟨c, rfl⟩) fun _ => rfl
    have hcolumns : columns (.word "SELECT" :: ts) = sepBy "," name ts := by
      rw [columns]
      intro rest e
      rw [e] at hs
      cases hs
    rw [hcolumns, hlist, List.map_id]

/-- **The table is read back**, with its schema or without. -/
theorem table_pieces (t : Table) (hs : rest.head? ≠ some (.word ".")) :
    table (.word "FROM" :: (tokens t.pieces ++ rest)) = some (t, rest) := by
  cases t with
  | plain n =>
    change table (.word "FROM" :: .name n :: rest) = _
    rw [table]
    rintro s rest' rfl
    exact hs rfl
  | within s n => rfl

/-- **The conditions are read back.** -/
theorem filter_draft (hwell : ∀ c ∈ q.conditions, c.WellFormed)
    (hs : Opens ["ORDER", "LIMIT", "OFFSET"] rest) :
    filter (tokens q.filterDraft.pieces ++ rest) =
      some (q.conditions.map Condition.normal, rest) := by
  by_cases hne : q.conditions = []
  · rw [Query.filterDraft, hne]
    change filter rest = some ([], rest)
    rw [filter]
    rintro ts rfl
    exact hs.ne (by decide) rfl
  · have hends : Ends rest := fun c => hs.ne (by cases c <;> decide)
    let ts := tokens (Draft.join Combinator.and.pieces (q.conditions.map Condition.draft)).pieces ++
      rest
    have hlinks : links Combinator.and.order .and [] ts =
        some (q.conditions.map Condition.expr, rest) :=
      links_join List.not_mem_nil hne hwell (fun c hc => operand_draft .and (hwell c hc)) hends
    have hnormal : (q.conditions.map Condition.expr).map Expr.condition =
        q.conditions.map Condition.normal := by
      rw [List.map_map]
      exact List.map_congr_left fun c _ => Expr.condition_expr c
    rw [Query.pieces_filterDraft hne, tokens_append, List.append_assoc]
    change filter (.word "WHERE" :: ts) = _
    rw [filter, hlinks, ← hnormal]
    rfl

/-- **The orders are read back.** -/
theorem orders_draft (b : Database) (q : Query) (hs : Opens ["LIMIT", "OFFSET"] rest) :
    orders (tokens (q.ordersDraft b.fallbackPieces).pieces ++ rest) = some (q.orders, rest) := by
  have hnone : orders rest = some ([], rest) := by
    rw [orders]
    · rintro ts rfl
      exact hs.ne (by decide) rfl
    · rintro ts rfl
      exact hs.ne (by decide) rfl
  rw [Query.ordersDraft]
  split
  · next he =>
    rw [List.isEmpty_iff.mp he]
    split
    · exact hnone
    · next hfb =>
      cases b with
      | sqlserver => rfl
      | _ => exact absurd rfl hfb
  · next he =>
    let ts := tokens (Draft.join commaPieces (q.orders.map Query.orderDraft)).pieces ++ rest
    have hne : q.orders ≠ [] := by simpa using he
    have hlist : sepBy "," order ts = some (q.orders.map id, rest) := by
      refine sepBy_join rfl hne (fun _ _ => rfl) (fun o _ next _ => ?_) (hs.ne (by decide))
      obtain ⟨field, direction⟩ := o
      cases direction <;> rfl
    obtain ⟨s, hs⟩ : ∃ s, ts.head? = some (.name s) :=
      head?_join hne (fun o => ⟨o.1, rfl⟩) fun _ => rfl
    have horders : orders (.word "ORDER" :: .word "BY" :: ts) = sepBy "," order ts := by
      rw [orders]
      intro rest e
      rw [e] at hs
      cases hs
    change orders (.word "ORDER" :: .word "BY" :: ts) = _
    rw [horders, hlist, List.map_id]

end Reading

/-! ## The whole statement -/

namespace Database

/-- What the statement of a query says. -/
def selection (b : Database) (q : Query) : Selection where
  columns := q.columns
  table := q.table
  conditions := q.conditions.map Condition.normal
  orders := q.orders
  page := b.canonicalPage q.effectivePage

/-- What a reader of the database takes a statement to say. -/
def recover (b : Database) (s : Statement) : Option Selection := (b.read s).bind Reading.selection

variable {b : Database} {q : Query}

/-- **The pieces of the rows say what is asked for.** -/
theorem selection_rows (hf : (b.rows q).fault? = none) :
    Reading.selection (tokens (b.rows q).pieces) = some (b.selection q) := by
  let pageTokens := tokens (b.pageDraft q.effectivePage).pieces
  let orderTokens := tokens (q.ordersDraft b.fallbackPieces).pieces ++ pageTokens
  let filterTokens := tokens q.filterDraft.pieces ++ orderTokens
  have hpage : Reading.Opens ["LIMIT", "OFFSET"] pageTokens :=
    Reading.opens_page b q.effectivePage
  have horders : Reading.Opens ["ORDER", "LIMIT", "OFFSET"] orderTokens :=
    (Reading.opens_orders q b.fallbackPieces).before hpage
  have hfilter : Reading.Opens ["WHERE", "ORDER", "LIMIT", "OFFSET"] filterTokens :=
    (Reading.opens_filter q).before horders
  have htokens : tokens (b.rows q).pieces = .word "SELECT" :: (tokens q.columnsDraft.pieces ++
      .word "FROM" :: (tokens q.table.pieces ++ filterTokens)) := by
    rw [pieces_rows hf, Query.headDraft]
    simp [Draft.pieces_append _ q.fault?_columnsDraft, filterTokens, orderTokens, pageTokens]
  rw [htokens, Reading.selection, Reading.columns_draft]
  simp only [Option.bind_eq_bind, Option.bind_some, filterTokens, orderTokens, pageTokens,
    Reading.table_pieces q.table (hfilter.ne (by decide)),
    Reading.filter_draft (fault?_rows.mp hf).2 horders, Reading.orders_draft b q hpage,
    Reading.page_pageDraft]
  rfl

/-- **A reader recovers what was asked for.** -/
theorem recover_build {s : Statement} (hq : q.dialect = b.dialect) (h : q.build.value = .ok s) :
    b.recover s = some (b.selection q) := by
  obtain ⟨hf, hr⟩ := reads_rows hq h
  rw [recover, hr.read_eq]
  exact selection_rows hf

/-- **Building loses nothing:** queries with the same statement have the same table, columns, orders
and conditions, up to the combinators of groups of one, and the same page, up to those that the
database writes alike. -/
theorem build_lossless {b : Database} {q q' : Query} {s : Statement} (hq : q.dialect = b.dialect)
    (hq' : q'.dialect = b.dialect) (h : q.build.value = .ok s) (h' : q'.build.value = .ok s) :
    q.table = q'.table ∧ q.columns = q'.columns ∧ q.orders = q'.orders ∧
      q.conditions.map Condition.normal = q'.conditions.map Condition.normal ∧
        b.canonicalPage q.effectivePage = b.canonicalPage q'.effectivePage := by
  have hsame : b.selection q = b.selection q' :=
    Option.some.inj ((recover_build hq h).symm.trans (recover_build hq' h'))
  obtain ⟨hcolumns, htable, hconditions, horders, hpage⟩ := Selection.mk.inj hsame
  exact ⟨htable, hcolumns, horders, hconditions, hpage⟩

end Database

/-- A query whose statement does not show the combinator. -/
def Query.hidden (c : Combinator) (limit : Option UInt64) : Query where
  table := .within "a`.`b" "c"
  dialect := .mysql
  conditions := [.not (.group c [.compare "` OR `" .eq (.single (.ofText "x"))])]
  orders := [("d", .desc)]
  page := { limit, offset := some 3 }

theorem Query.hidden_lossless :
    ∃ s, (hidden .or none).build.value = .ok s ∧
      (hidden .and (some 18446744073709551615)).build.value = .ok s ∧
        (hidden .or none).conditions.map Condition.normal =
          (hidden .and (some 18446744073709551615)).conditions.map Condition.normal ∧
        Database.mysql.canonicalPage (hidden .or none).effectivePage =
          Database.mysql.canonicalPage (hidden .and (some 18446744073709551615)).effectivePage :=
  ⟨_, rfl, rfl, (Database.build_lossless rfl rfl rfl rfl).2.2.2⟩

end SelectQuery
