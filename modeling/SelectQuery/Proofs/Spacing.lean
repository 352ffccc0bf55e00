import SelectQuery.Proofs.Layout

/-!
# Proofs/Spacing — no two pieces of a statement run together

Pieces are **spaced** if they are well spaced before anything that stands apart.  Lists and clauses
of spaced pieces are spaced, hence conditions (`Condition.spaced_draft`, by induction on the tree)
and whole statements.  So a statement is read back token by token, with whatever names and values it
was made: `Database.reads_rows`, `Database.reads_count` and `Database.reads_condition`.
-/

namespace SelectQuery

/-- Well spaced before anything that stands apart. -/
def Spaced (ps : List Piece) : Prop :=
  ∀ rest, wellSpaced rest = true → startsApart rest = true → wellSpaced (ps ++ rest) = true

theorem Spaced.nil : Spaced [] := fun _ h _ => h

/-- Spaced pieces go behind one another where the second ones start apart. -/
theorem Spaced.append {ps qs : List Piece} (hp : Spaced ps) (hq : Spaced qs)
    (ha : startsApart qs = true) : Spaced (ps ++ qs) := by
  intro rest hr hra
  rw [List.append_assoc]
  refine hp _ (hq rest hr hra) ?_
  cases qs with
  | nil => exact hra
  | cons q qs => exact ha

/-- Spaced pieces are well spaced by themselves. -/
theorem Spaced.wellSpaced {ps : List Piece} (h : Spaced ps) : wellSpaced ps = true := by
  simpa using h [] rfl rfl

/-- What starts apart does so before anything that does too. -/
theorem startsApart_append {ps qs : List Piece} (hp : startsApart ps = true)
    (hq : startsApart qs = true) : startsApart (ps ++ qs) = true := by
  cases ps with
  | nil => exact hq
  | cons p ps => exact hp

/-- **A list of spaced items is spaced**, whatever separates them. -/
theorem Spaced.join {separator : List Piece} (hs : ∀ rest, SelectQuery.wellSpaced rest = true →
      SelectQuery.wellSpaced (separator ++ rest) = true ∧ startsApart (separator ++ rest) = true)
    {xs : List Draft} (hf : (Draft.join separator xs).fault? = none)
    (h : ∀ x ∈ xs, Spaced x.pieces) : Spaced (Draft.join separator xs).pieces := by
  induction xs using Draft.join.induct with
  | case1 => exact Spaced.nil
  | case2 x => exact h x (List.mem_singleton_self x)
  | case3 x y rest ih =>
    have hx : x.fault? = none := Draft.fault?_join.mp hf x List.mem_cons_self
    have hrest : (Draft.join separator (y :: rest)).fault? = none :=
      Draft.fault?_join.mpr fun z hz => Draft.fault?_join.mp hf z (List.mem_cons_of_mem x hz)
    intro qs hq ha
    obtain ⟨hws, hsa⟩ := hs _ <| ih hrest (fun z hz => h z (List.mem_cons_of_mem x hz)) qs hq ha
    rw [Draft.pieces_join_cons_cons hx, List.append_assoc, List.append_assoc]
    exact h x List.mem_cons_self _ hws hsa

/-- A name is spaced: its quotes end it. -/
theorem Spaced.name (s : String) : Spaced [.name s] := fun rest hr ha => by
  simp [SelectQuery.wellSpaced, Piece.isClean, hr, ha]

/-- So is a mark: nothing goes on into its number. -/
theorem Spaced.mark (v : Value) : Spaced [.mark v] := fun rest hr ha => by
  simp [SelectQuery.wellSpaced, Piece.isClean, hr, ha]

/-- A word is spaced if it is one word. -/
theorem Spaced.word {s : String} (h : (Piece.word s).isClean = true) : Spaced [.word s] :=
  fun rest hr ha => by simp [SelectQuery.wellSpaced, h, hr, ha]

/-- A comma and a blank keep apart what stands on both sides. -/
theorem wellSpaced_commaPieces {rest : List Piece} (h : wellSpaced rest = true) :
    wellSpaced (commaPieces ++ rest) = true ∧ startsApart (commaPieces ++ rest) = true := ⟨h, rfl⟩

/-- A combinator between blanks keeps apart what stands on both sides. -/
theorem Combinator.wellSpaced_pieces (c : Combinator) {rest : List Piece}
    (h : wellSpaced rest = true) :
    wellSpaced (c.pieces ++ rest) = true ∧ startsApart (c.pieces ++ rest) = true := by
  cases c <;> exact ⟨h, rfl⟩

theorem Spaced.markList (vs : List Value) : Spaced (markList vs).pieces :=
  Spaced.join (fun _ => wellSpaced_commaPieces) (fault?_markList vs)
    (List.forall_mem_map.mpr fun v _ => Spaced.mark v)

/-- The pieces of a comparison that fits are spaced. -/
theorem Spaced.comparison {field : String} {op : Operator} {operand : Operand}
    (h : op.Fits operand) : Spaced (comparisonDraft field op operand).pieces := by
  intro rest hr ha
  cases h with
  | single hop v =>
    rw [comparisonDraft, if_pos hop]
    have hmark := Spaced.mark v rest hr ha
    cases op <;> exact hmark
  | member v vs =>
    rw [pieces_member, List.append_assoc, List.append_assoc]
    exact Spaced.markList (v :: vs) (.word ")" :: rest) hr rfl
  | between low high => exact Spaced.mark high rest hr ha

/-- **Conditions are spaced.** -/
theorem Condition.spaced_draft {c : Condition} (h : c.WellFormed) : Spaced c.draft.pieces := by
  induction h with
  | compare hfit => exact Spaced.comparison hfit
  | @group c members hne hm ih =>
    rw [pieces_draft_group hne hm]
    intro rest hr ha
    have hjoin := Spaced.join (fun _ => c.wellSpaced_pieces) (fault?_join_draft.mpr hm)
      (List.forall_mem_map.mpr ih)
    have := hjoin (.word ")" :: rest) hr rfl
    rw [List.cons_append, List.append_assoc]
    exact this
  | not hin ih =>
    rw [pieces_draft_not hin]
    intro rest hr ha
    rw [List.cons_append, List.cons_append, List.cons_append, List.append_assoc]
    exact ih (.word ")" :: rest) hr rfl

/-! ## Whole statements -/

namespace Query

theorem spaced_columnsDraft (q : Query) : Spaced q.columnsDraft.pieces := by
  have hf := fault?_columnsDraft q
  rw [columnsDraft] at hf ⊢
  split
  · exact fun rest hr _ => hr
  · next he =>
    rw [if_neg he] at hf
    exact Spaced.join (fun _ => wellSpaced_commaPieces) hf
      (List.forall_mem_map.mpr fun c _ => Spaced.name c)

theorem spaced_tablePieces (t : Table) : Spaced t.pieces := by
  cases t with
  | plain n => exact Spaced.name n
  | within s n => exact fun rest hr ha => Spaced.name n rest hr ha

/-- From the start of a statement to its table the pieces are spaced, if its selection is. -/
theorem spaced_headDraft (q : Query) {selection : Draft} (hf : selection.fault? = none)
    (h : Spaced selection.pieces) : Spaced (q.headDraft selection).pieces := by
  intro rest hr ha
  have htable := spaced_tablePieces q.table rest hr ha
  have hselection := h (.blank :: .word "FROM" :: .blank :: (q.table.pieces ++ rest)) htable rfl
  rw [headDraft, Draft.pieces_append_mk, Draft.pieces_append _ hf, List.append_assoc,
    List.append_assoc]
  exact hselection

variable {q : Query}

/-- A filter is spaced and starts apart from what is before it. -/
theorem spaced_filterDraft (hwell : ∀ c ∈ q.conditions, c.WellFormed) :
    Spaced q.filterDraft.pieces ∧ startsApart q.filterDraft.pieces = true := by
  rw [filterDraft]
  split
  · exact ⟨Spaced.nil, rfl⟩
  · have hspaced := Spaced.join (fun _ => Combinator.and.wellSpaced_pieces)
      (Condition.fault?_join_draft.mpr hwell)
      (List.forall_mem_map.mpr fun c hc => Condition.spaced_draft (hwell c hc))
    exact ⟨fun rest hr ha => hspaced rest hr ha, rfl⟩

theorem spaced_orderDraft (o : String × Order) : Spaced (orderDraft o).pieces := by
  have hword : (Piece.word o.2.sql).isClean = true := by cases o.2 <;> rfl
  exact fun rest hr ha => Spaced.word hword rest hr ha

/-- So are the orders, if what stands in for them is spaced. -/
theorem spaced_ordersDraft (q : Query) {fallback : List Piece} (hfb : Spaced fallback) :
    Spaced (q.ordersDraft fallback).pieces ∧
      startsApart (q.ordersDraft fallback).pieces = true := by
  rw [ordersDraft]
  split
  · split
    · exact ⟨Spaced.nil, rfl⟩
    · exact ⟨fun rest hr ha => hfb rest hr ha, rfl⟩
  · have hspaced := Spaced.join (fun _ => wellSpaced_commaPieces)
      (Draft.fault?_join_map q.orders fun _ => rfl)
      (List.forall_mem_map.mpr fun o (_ : o ∈ q.orders) => spaced_orderDraft o)
    exact ⟨fun rest hr ha => hspaced rest hr ha, rfl⟩

/-- The pieces of the count are well spaced. -/
theorem wellSpaced_count (hf : q.count.fault? = none) : wellSpaced q.count.pieces = true := by
  obtain ⟨hfilter, hapart⟩ := spaced_filterDraft (fault?_count.mp hf).2
  have hcount : Spaced countPieces := fun rest hr _ => hr
  rw [pieces_count hf]
  exact ((q.spaced_headDraft rfl hcount).append hfilter hapart).wellSpaced

end Query

namespace Database

/-- A number is read as one word. -/
theorem isClean_toString (n : Nat) : (Piece.word (toString n)).isClean = true := by
  have hdigits : ∀ c ∈ Nat.toDigits 10 n, Lexicon.isLetter c = true := fun c hc =>
    Lexicon.isLetter_of_isDigit (isDigit_toDigits n c hc)
  rw [Piece.isClean, Nat.toString_eq_repr, Nat.toList_repr]
  cases h : Nat.toDigits 10 n with
  | nil => exact absurd h Nat.toDigits_ne_nil
  | cons c run =>
    have hc : Lexicon.isLetter c = true := hdigits c (h ▸ List.mem_cons_self)
    have hblank : c ≠ ' ' := by
      rintro rfl
      cases hc
    have hrun : ∀ x ∈ run, Lexicon.isLetter x = true := fun x hx =>
      hdigits x (h ▸ List.mem_cons_of_mem c hx)
    simpa [Lexicon.isFree, Lexicon.goesOn, hc, hblank] using hrun

/-- So is the clause for a page, which numbers and keywords make up. -/
theorem spaced_pageDraft (b : Database) (p : Page) :
    Spaced (b.pageDraft p).pieces ∧ startsApart (b.pageDraft p).pieces = true := by
  have hnumber (n : Nat) : (Piece.word n.repr).isClean = true := isClean_toString n
  have hstart (p : Piece) (ps : List Piece) : startsApart (p :: ps) = p.isApart := rfl
  refine ⟨fun rest hr ha => ?_, ?_⟩ <;> obtain ⟨_ | n, _ | m⟩ := p <;> cases b <;>
    simp +decide [pageDraft, pagePieces, limitOffsetPieces, offsetFetchPieces, limitPieces,
      offsetPieces, unlimited, wellSpaced, Piece.isApart, *]

theorem spaced_fallbackPieces (b : Database) : Spaced b.fallbackPieces := by
  cases b with
  | sqlserver => exact fun rest hr _ => hr
  | _ => exact Spaced.nil

/-- The pieces of the rows are well spaced. -/
theorem wellSpaced_rows {b : Database} {q : Query} (hf : (b.rows q).fault? = none) :
    wellSpaced (b.rows q).pieces = true := by
  have hhead := q.spaced_headDraft q.fault?_columnsDraft q.spaced_columnsDraft
  obtain ⟨hfilter, hfilter'⟩ := Query.spaced_filterDraft (fault?_rows.mp hf).2
  obtain ⟨horders, horders'⟩ := q.spaced_ordersDraft b.spaced_fallbackPieces
  obtain ⟨hpage, hpage'⟩ := b.spaced_pageDraft q.effectivePage
  rw [pieces_rows hf]
  exact ((hhead.append hfilter hfilter').append (horders.append hpage hpage')
    (startsApart_append horders' hpage')).wellSpaced

/-! ## Statements read back -/

/-- **A reader of the database finds these tokens**: in the text their placeholders, numbered from
one, and beside it their arguments. -/
structure Reads (b : Database) (s : Statement) (ts : List (Token Value)) : Prop where
  lex : b.lexicon.lex s.text.toList = some (Token.number b.dialect.placeholder 1 ts)
  args : s.args = Token.marks ts

/-- The tokens of a statement, its arguments in the places of its placeholders in order; none if the
text has an open name, or if there are not as many arguments as placeholders. -/
def read (b : Database) (s : Statement) : Option (List (Token Value)) :=
  (b.lexicon.lex s.text.toList).bind fun ts => Token.bind ts s.args

/-- A statement that reads back as tokens is read, and gives them. -/
theorem Reads.read_eq {b : Database} {s : Statement} {ts : List (Token Value)}
    (h : b.Reads s ts) : b.read s = some ts := by
  rw [read, h.lex, h.args]
  exact Token.bind_number _ 1 ts

variable {b : Database} {q : Query} {s : Statement}

/-- **A statement of well-spaced pieces reads back as their tokens.** -/
theorem reads_draft {x : Draft} (hs : x.fault? = none → wellSpaced x.pieces = true)
    (h : x.statement b.dialect = .ok s) : x.fault? = none ∧ b.Reads s (tokens x.pieces) := by
  rw [Draft.statement] at h
  split at h
  · next hf =>
    cases h
    refine ⟨hf, ?_, rfl⟩
    rw [String.toList_ofList]
    exact Lexicon.lex_spell b.describes 1 (hs hf)
  · cases h

/-- **The rows are read back token by token.** -/
theorem reads_rows (hq : q.dialect = b.dialect) (h : q.build.value = .ok s) :
    (b.rows q).fault? = none ∧ b.Reads s (tokens (b.rows q).pieces) :=
  reads_draft wellSpaced_rows (q.build_value hq ▸ h)

/-- **The count is read back token by token.** -/
theorem reads_count (hq : q.dialect = b.dialect) (h : q.buildCount.value = .ok s) :
    q.count.fault? = none ∧ b.Reads s (tokens q.count.pieces) :=
  reads_draft Query.wellSpaced_count (q.buildCount_value hq ▸ h)

/-- **A condition by itself is read back token by token.** -/
theorem reads_condition {c : Condition} (h : (c.statement b.dialect).value = .ok s) :
    c.WellFormed ∧ b.Reads s (tokens c.draft.pieces) := by
  obtain ⟨hf, hr⟩ := reads_draft
    (fun hf => (Condition.spaced_draft (Condition.fault?_draft.mp hf)).wellSpaced)
    ((c.statement_value b.dialect).symm.trans h)
  exact ⟨Condition.fault?_draft.mp hf, hr⟩

end Database

end SelectQuery
