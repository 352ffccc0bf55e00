import SelectQuery.Condition.Text
import SelectQuery.Proofs.Piece

/-!
# Proofs/Draft — what a writing writes

A `Writing` changes a writer and may stop on its way.  Its **draft** says how: the pieces that it
puts, up to the fault that stops it.  `Condition.draft` goes by recursion on the tree, and
`Condition.write_writes` says that writing a condition writes its draft — on every dialect, to every
writer, whether it succeeds or not.  So what a dialect decides is the spelling of the pieces, and
nothing else.
-/

namespace SelectQuery

/-- The pieces that are put until a fault stops it, if any does. -/
structure Draft where
  pieces : List Piece
  fault? : Option Fault := none

namespace Draft

/-- Nothing but a fault. -/
def refuse (fault : Fault) : Draft := ⟨[], some fault⟩

/-- One draft after another; what follows a fault is not written. -/
instance : Append Draft where
  append x y :=
    match x.fault? with
    | none => ⟨x.pieces ++ y.pieces, y.fault?⟩
    | some _ => x

/-- Drafts in order, with pieces between neighbours. -/
def join (separator : List Piece) : List Draft → Draft
  | [] => ⟨[], none⟩
  | [x] => x
  | x :: y :: rest => x ++ (⟨separator, none⟩ ++ join separator (y :: rest))

/-- What comes of it. -/
def outcome (x : Draft) : Except Fault Unit :=
  match x.fault? with
  | none => .ok ()
  | some fault => .error fault

/-- The writer to which a draft is written, unless there is a fault. -/
def written (d : Dialect) (x : Draft) : Except Fault Writer :=
  match x.fault? with
  | none => .ok (Writer.putAll d {} x.pieces)
  | some fault => .error fault

/-- The statement of a draft on a dialect. -/
def statement (d : Dialect) (x : Draft) : Except Fault Statement :=
  match x.fault? with
  | none => .ok ⟨String.ofList (spell d 1 x.pieces), arguments x.pieces⟩
  | some fault => .error fault

/-- A draft is written to a new writer as the statement that it has. -/
theorem map_statement_written (d : Dialect) (x : Draft) :
    (x.written d).map Writer.statement = x.statement d := by
  rw [written, statement]
  split
  · exact congrArg Except.ok (Writer.statement_putAll d x.pieces)
  · rfl

@[simp] theorem refuse_fault? (fault : Fault) : (refuse fault).fault? = some fault := rfl

/-- Behind a draft without a fault another goes on. -/
theorem append_of_none {x : Draft} (y : Draft) (h : x.fault? = none) :
    x ++ y = ⟨x.pieces ++ y.pieces, y.fault?⟩ := by
  change (match x.fault? with | none => _ | some _ => x) = _
  rw [h]

/-- Behind a fault nothing is written. -/
theorem append_of_some {x : Draft} (y : Draft) {fault : Fault} (h : x.fault? = some fault) :
    x ++ y = x := by
  change (match x.fault? with | none => _ | some _ => x) = _
  rw [h]

/-- A draft is free of faults where its parts are. -/
@[simp] theorem fault?_append {x y : Draft} :
    (x ++ y).fault? = none ↔ x.fault? = none ∧ y.fault? = none := by
  cases h : x.fault? with
  | none => simp [append_of_none y h]
  | some fault => simp [append_of_some y h, h]

/-- Behind a draft without a fault the pieces of another are its pieces too. -/
theorem pieces_append {x : Draft} (y : Draft) (h : x.fault? = none) :
    (x ++ y).pieces = x.pieces ++ y.pieces := by rw [append_of_none y h]

@[simp] theorem pieces_append_mk (ps : List Piece) (y : Draft) :
    ((⟨ps, none⟩ : Draft) ++ y).pieces = ps ++ y.pieces := pieces_append y rfl

@[simp] theorem fault?_append_mk (ps : List Piece) (y : Draft) :
    ((⟨ps, none⟩ : Draft) ++ y).fault? = y.fault? := by rw [append_of_none y rfl]

/-- Joined drafts are free of faults where each of them is. -/
theorem fault?_join {separator : List Piece} {xs : List Draft} :
    (join separator xs).fault? = none ↔ ∀ x ∈ xs, x.fault? = none := by
  induction xs using join.induct with
  | case1 => simp [join]
  | case2 x => simp [join]
  | case3 x y rest ih => simp [join, ih]

/-- Items that have no faults have none side by side. -/
theorem fault?_join_map {α : Type} {separator : List Piece} {draft : α → Draft} (xs : List α)
    (h : ∀ x, (draft x).fault? = none) : (join separator (xs.map draft)).fault? = none :=
  fault?_join.mpr (List.forall_mem_map.mpr fun x _ => h x)

/-- Between the first of the joined drafts and the others the separator stands. -/
theorem pieces_join_cons_cons {separator : List Piece} {x y : Draft} {rest : List Draft}
    (h : x.fault? = none) :
    (join separator (x :: y :: rest)).pieces =
      x.pieces ++ (separator ++ (join separator (y :: rest)).pieces) := by
  rw [join, pieces_append _ h, pieces_append_mk]

/-- What ends a draft ends it behind any other that has no fault. -/
theorem getLast?_pieces_append {x y : Draft} {p : Piece} (hx : x.fault? = none)
    (hy : y.pieces.getLast? = some p) : (x ++ y).pieces.getLast? = some p := by
  rw [pieces_append y hx, List.getLast?_append, hy]
  rfl

/-- What ends each of the joined drafts ends all of them together. -/
theorem getLast?_pieces_join {P : Piece → Prop} {separator : List Piece} {xs : List Draft}
    (hne : xs ≠ []) (hf : (join separator xs).fault? = none)
    (h : ∀ x ∈ xs, ∃ p, x.pieces.getLast? = some p ∧ P p) :
    ∃ p, (join separator xs).pieces.getLast? = some p ∧ P p := by
  induction xs using join.induct with
  | case1 => exact absurd rfl hne
  | case2 x => exact h x (List.mem_singleton_self x)
  | case3 x y rest ih =>
    have hx : x.fault? = none := fault?_join.mp hf x List.mem_cons_self
    have hrest : (join separator (y :: rest)).fault? = none :=
      fault?_join.mpr fun z hz => fault?_join.mp hf z (List.mem_cons_of_mem x hz)
    obtain ⟨p, hp, hP⟩ := ih (List.cons_ne_nil y rest) hrest
      fun z hz => h z (List.mem_cons_of_mem x hz)
    exact ⟨p, getLast?_pieces_append hx (getLast?_pieces_append rfl hp), hP⟩

end Draft

/-! ## Writings and their drafts -/

namespace Writing

variable {α β : Type} {d : Dialect}

/-- **One writing after another** runs on the writer that the first one leaves, unless that one
fails. -/
theorem traced_bind (x : Writing α) (f : α → Writing β) (w : Writer) :
    (x >>= f).traced w = x.traced w >>= fun
      | (.ok a, w') => (f a).traced w'
      | (.error fault, w') => pure (.error fault, w') := by
  simp only [traced, ExceptT.run_bind, StateT.run_bind]
  refine Traced.bind_congr ?_
  rcases (StateT.run (ExceptT.run x) w).value with ⟨_ | _, _⟩ <;> rfl

theorem on_bind (x : Writing α) (f : α → Writing β) (w : Writer) :
    (x >>= f).on w = match x.on w with
      | (.ok a, w') => (f a).on w'
      | (.error fault, w') => (.error fault, w') := by
  rw [on, traced_bind, Traced.value_bind, ← on]
  rcases x.on w with ⟨_ | _, _⟩ <;> rfl

/-- **A failure may be caught**; what was written by then stays. -/
theorem traced_tryCatch (x : Writing α) (h : Fault → Writing α) (w : Writer) :
    (tryCatch x h).traced w = x.traced w >>= fun
      | (.ok a, w') => pure (.ok a, w')
      | (.error fault, w') => (h fault).traced w' := by
  simp only [traced, ExceptT.run_tryCatch, StateT.run_bind]
  refine Traced.bind_congr ?_
  rcases (StateT.run (ExceptT.run x) w).value with ⟨_ | _, _⟩ <;> rfl

theorem on_tryCatch (x : Writing α) (h : Fault → Writing α) (w : Writer) :
    (tryCatch x h).on w = match x.on w with
      | (.ok a, w') => (.ok a, w')
      | (.error fault, w') => (h fault).on w' := by
  rw [on, traced_tryCatch, Traced.value_bind, ← on]
  rcases x.on w with ⟨_ | _, _⟩ <;> rfl

/-- **A failure that is reported** is a failure as before. -/
theorem traced_reporting (e : Fault → Event) (x : Writing α) (w : Writer) :
    (x.reporting e).traced w = x.traced w >>= fun
      | (.ok a, w') => pure (.ok a, w')
      | (.error fault, w') => ⟨(.error fault, w'), [e fault]⟩ := by
  rw [reporting, traced_tryCatch]
  refine Traced.bind_congr ?_
  rcases (x.traced w).value with ⟨_ | _, w'⟩ <;> rfl

theorem on_reporting (e : Fault → Event) (x : Writing α) (w : Writer) :
    (x.reporting e).on w = x.on w := by
  rw [on, traced_reporting, Traced.value_bind, ← on]
  rcases x.on w with ⟨_ | _, w'⟩ <;> rfl

/-- A change of the writer is reported to nobody. -/
theorem traced_modify {f : Writer → Writer} {w w' : Writer} (h : f w = w') :
    (modify f : Writing Unit).traced w = pure (.ok (), w') := h ▸ rfl

/-- What a writing writes on a dialect to one writer, without a report. -/
def WritesTo (d : Dialect) (w : Writer) (x : Writing Unit) (draft : Draft) : Prop :=
  x.traced w = pure (draft.outcome, w.putAll d draft.pieces)

/-- **What a writing writes on a dialect**, to whatever writer and without a report. -/
def Writes (d : Dialect) (x : Writing Unit) (draft : Draft) : Prop :=
  ∀ w : Writer, WritesTo d w x draft

/-- So a run on the writer comes to the fault of the draft, if there is one, and leaves its pieces. -/
theorem WritesTo.on_eq {w : Writer} {x : Writing Unit} {X : Draft} (h : WritesTo d w x X) :
    x.on w = (X.outcome, w.putAll d X.pieces) := congrArg Traced.value h

/-- A change of the writer writes the pieces that make the same change. -/
theorem WritesTo.modify {w : Writer} {f : Writer → Writer} {ps : List Piece}
    (h : f w = w.putAll d ps) : WritesTo d w (modify f) ⟨ps, none⟩ := traced_modify h

theorem Writes.of_eq {x : Writing Unit} {X Y : Draft} (h : Writes d x X) (e : X = Y) :
    Writes d x Y := e ▸ h

theorem Writes.pure : Writes d (Pure.pure ()) ⟨[], none⟩ := fun _ => rfl

theorem Writes.throw (fault : Fault) : Writes d (throw fault) (.refuse fault) := fun _ => rfl

/-- Any text that is pushed may be taken for one word. -/
theorem Writes.word (s : String) : Writes d (Writing.push s) ⟨[.word s], none⟩ := fun _ => rfl

theorem Writes.name (s : String) : Writes d (Writing.name d s) ⟨[.name s], none⟩ := fun _ => rfl

theorem Writes.value (v : Value) : Writes d (discard (Writing.value d v)) ⟨[.mark v], none⟩ :=
  fun _ => rfl

/-- **One writing after another writes one draft after another.**  The second one only runs on what
the first has left. -/
theorem WritesTo.seq {w : Writer} {x y : Writing Unit} {X Y : Draft} (hx : WritesTo d w x X)
    (hy : X.fault? = none → WritesTo d (w.putAll d X.pieces) y Y) :
    WritesTo d w (x >>= fun _ => y) (X ++ Y) := by
  rw [WritesTo, traced_bind, hx, pure_bind]
  cases h : X.fault? with
  | none =>
    simp only [Draft.outcome, h, Draft.append_of_none Y h, Writer.putAll_append]
    exact hy h
  | some fault => simp only [Draft.outcome, h, Draft.append_of_some Y h]

/-- On every writer: one writing after another writes one draft after another. -/
theorem Writes.seq {x y : Writing Unit} {X Y : Draft} (hx : Writes d x X) (hy : Writes d y Y) :
    Writes d (x >>= fun _ => y) (X ++ Y) := fun w => (hx w).seq fun _ => hy _

/-- The number of a placeholder is not looked at. -/
theorem Writes.value_seq {y : Writing Unit} {Y : Draft} (v : Value) (hy : Writes d y Y) :
    Writes d (Writing.value d v >>= fun _ => y) (⟨[.mark v], none⟩ ++ Y) := fun w =>
  Writes.seq (Writes.value v) hy w

/-- What stands behind a fault is not written. -/
theorem Writes.stop (fault : Fault) (f : β → Writing Unit) :
    Writes d (MonadExcept.throw fault >>= f) (.refuse fault) := fun w => by
  rw [WritesTo, traced_bind]
  rfl

/-- **With a report of its failure** a writing writes the same draft. -/
theorem WritesTo.reporting {w : Writer} {x : Writing Unit} {X : Draft} (hx : WritesTo d w x X)
    (e : Fault → Event) :
    (x.reporting e).traced w =
      ⟨(X.outcome, w.putAll d X.pieces), (X.fault?.map e).toList⟩ := by
  rw [traced_reporting, hx, pure_bind, Draft.outcome]
  cases X.fault? <;> rfl

/-- **A list is written as the drafts of its items, joined.** -/
theorem Writes.list {separator : String} {ps : List Piece} {item : α → Writing Unit}
    {draft : α → Draft} (hs : Writes d (Writing.push separator) ⟨ps, none⟩) :
    ∀ xs : List α, (∀ x ∈ xs, Writes d (item x) (draft x)) →
      Writes d (Writing.list separator item xs) (Draft.join ps (xs.map draft))
  | [], _ => Writes.pure
  | [x], h => h x (List.mem_singleton_self x)
  | x :: y :: rest, h =>
    Writes.seq (h x List.mem_cons_self) <| Writes.seq hs <|
      Writes.list hs (y :: rest) fun z hz => h z (List.mem_cons_of_mem x hz)

end Writing

/-! ## The draft of a condition -/

namespace Combinator

/-- The pieces between two conditions of a group. -/
def pieces (c : Combinator) : List Piece := [.blank, .word c.sql, .blank]

end Combinator

/-- The pieces between two names, orders or marks. -/
def commaPieces : List Piece := [.word ",", .blank]

/-- The marks of a list of values. -/
def markList (vs : List Value) : Draft :=
  Draft.join commaPieces (vs.map fun v => ⟨[.mark v], none⟩)

/-- The draft of a comparison. -/
def comparisonDraft (field : String) (op : Operator) : Operand → Draft
  | .single v =>
    if op.takesSingle then ⟨[.name field, .blank, .word op.sql, .blank, .mark v], none⟩
    else .refuse (.operandMismatch field op .list)
  | .list vs =>
    match op with
    | .member =>
      if vs.isEmpty then .refuse (.emptyMembership field)
      else ⟨[.name field, .blank, .word "IN", .blank, .word "("], none⟩ ++
        (markList vs ++ ⟨[.word ")"], none⟩)
    | .between =>
      match vs with
      | [low, high] =>
        ⟨[.name field, .blank, .word "BETWEEN", .blank, .mark low, .blank, .word "AND", .blank,
          .mark high], none⟩
      | _ => .refuse (.rangeArity field vs.length)
    | _ => .refuse (.operandMismatch field op .single)

/-- There is nothing wrong with a list of marks. -/
theorem fault?_markList (vs : List Value) : (markList vs).fault? = none :=
  Draft.fault?_join_map vs fun _ => rfl

/-- What a membership puts: the field, the keyword, and the marks in parentheses. -/
theorem pieces_member (field : String) (v : Value) (vs : List Value) :
    (comparisonDraft field .member (.list (v :: vs))).pieces =
      [.name field, .blank, .word "IN", .blank, .word "("] ++
        ((markList (v :: vs)).pieces ++ [.word ")"]) := by
  rw [comparisonDraft, if_neg (by simp), Draft.pieces_append_mk,
    Draft.pieces_append _ (fault?_markList (v :: vs))]

namespace Condition

/-- **Induction on conditions**, with the hypothesis for every member of a group. -/
@[elab_as_elim]
theorem induction {P : Condition → Prop}
    (compare : ∀ field op operand, P (compare field op operand))
    (group : ∀ c members, (∀ m ∈ members, P m) → P (group c members))
    (not : ∀ inner, P inner → P (not inner)) (c : Condition) : P c :=
  Condition.rec compare group not (fun _ h => absurd h List.not_mem_nil)
    (fun _ _ hm hms _ h => (List.mem_cons.mp h).elim (fun e => e ▸ hm) (hms _)) c

mutual

/-- The draft of a condition. -/
def draft : Condition → Draft
  | compare field op operand => comparisonDraft field op operand
  | group c members =>
    if members.isEmpty then .refuse (.emptyGroup c)
    else ⟨[.word "("], none⟩ ++ (draftAll c members ++ ⟨[.word ")"], none⟩)
  | not inner => ⟨[.word "NOT", .blank, .word "("], none⟩ ++ (draft inner ++ ⟨[.word ")"], none⟩)

/-- The draft of conditions under a combinator. -/
def draftAll (c : Combinator) : List Condition → Draft
  | [] => ⟨[], none⟩
  | [m] => draft m
  | m :: m' :: rest => draft m ++ (⟨c.pieces, none⟩ ++ draftAll c (m' :: rest))

end

/-- The draft of conditions under a combinator is that of each, joined. -/
theorem draftAll_eq_join (c : Combinator) (members : List Condition) :
    draftAll c members = Draft.join c.pieces (members.map draft) := by
  induction members with
  | nil => rfl
  | cons m members ih =>
    cases members with
    | nil => rfl
    | cons m' rest => rw [draftAll, ih]; rfl

end Condition

/-! ## Conditions that have a text -/

/-- The operand fits the operator. -/
inductive Operator.Fits : Operator → Operand → Prop
  | single {op : Operator} (h : op.takesSingle = true) (v : Value) : Fits op (.single v)
  | member (v : Value) (vs : List Value) : Fits .member (.list (v :: vs))
  | between (low high : Value) : Fits .between (.list [low, high])

/-- **A comparison is free of faults exactly if its operand fits its operator.** -/
theorem fault?_comparisonDraft {field : String} {op : Operator} {operand : Operand} :
    (comparisonDraft field op operand).fault? = none ↔ op.Fits operand := by
  constructor
  · intro h
    match operand with
    | .single v =>
      rw [comparisonDraft] at h
      split at h
      · next hop => exact .single hop v
      · cases h
    | .list vs =>
      cases op with
      | member =>
        cases vs with
        | nil => cases h
        | cons v vs => exact .member v vs
      | between =>
        rcases vs with _ | ⟨low, _ | ⟨high, _ | ⟨v, vs⟩⟩⟩
        · cases h
        · cases h
        · exact .between low high
        · cases h
      | _ => cases h
  · intro h
    cases h with
    | single hop v => simp [comparisonDraft, hop]
    | member v vs => simp [comparisonDraft, fault?_markList]
    | between low high => rfl

namespace Condition

/-- **Every node has a text:** operands fit their operators and groups have members. -/
inductive WellFormed : Condition → Prop
  | compare {field : String} {op : Operator} {operand : Operand} (h : op.Fits operand) :
      WellFormed (compare field op operand)
  | group {c : Combinator} {members : List Condition} (hne : members ≠ [])
      (h : ∀ m ∈ members, WellFormed m) : WellFormed (group c members)
  | not {inner : Condition} (h : WellFormed inner) : WellFormed (not inner)

/-- **The draft of a condition is free of faults exactly if the condition is well formed.** -/
theorem fault?_draft {c : Condition} : c.draft.fault? = none ↔ c.WellFormed := by
  induction c using Condition.induction with
  | compare field op operand =>
    rw [draft, fault?_comparisonDraft]
    exact ⟨.compare, fun h => by cases h; assumption⟩
  | group c members ih =>
    have hdraft : (group c members).draft.fault? = none ↔
        members ≠ [] ∧ ∀ m ∈ members, m.draft.fault? = none := by
      cases members with
      | nil => simp [draft]
      | cons m rest => simp [draft, draftAll_eq_join, Draft.fault?_join]
    rw [hdraft]
    constructor
    · exact fun h => .group h.1 fun m hm => (ih m hm).mp (h.2 m hm)
    · intro h
      cases h with
      | group hne h => exact ⟨hne, fun m hm => (ih m hm).mpr (h m hm)⟩
  | not inner ih =>
    have hdraft : (not inner).draft.fault? = none ↔ inner.draft.fault? = none := by simp [draft]
    rw [hdraft, ih]
    exact ⟨.not, fun h => by cases h; assumption⟩

/-- Conditions side by side are free of faults where each of them is well formed. -/
theorem fault?_join_draft {separator : List Piece} {cs : List Condition} :
    (Draft.join separator (cs.map draft)).fault? = none ↔ ∀ c ∈ cs, c.WellFormed := by
  simp [Draft.fault?_join, fault?_draft]

/-- What a group puts: its members between parentheses, with the combinator between them. -/
theorem pieces_draft_group {c : Combinator} {members : List Condition} (hne : members ≠ [])
    (h : ∀ m ∈ members, m.WellFormed) :
    (group c members).draft.pieces =
      .word "(" :: ((Draft.join c.pieces (members.map draft)).pieces ++ [.word ")"]) := by
  have hne' : members.isEmpty = false := by simpa using hne
  rw [draft, hne', draftAll_eq_join, if_neg Bool.false_ne_true, Draft.pieces_append_mk,
    Draft.pieces_append _ (fault?_join_draft.mpr h)]
  rfl

/-- What a negation puts: the keyword, and the condition between parentheses. -/
theorem pieces_draft_not {inner : Condition} (h : inner.WellFormed) :
    (not inner).draft.pieces =
      .word "NOT" :: .blank :: .word "(" :: (inner.draft.pieces ++ [.word ")"]) := by
  rw [draft, Draft.pieces_append_mk, Draft.pieces_append _ (fault?_draft.mpr h)]
  rfl

end Condition

/-! ## Writing a condition writes its draft -/

namespace Writing

variable {d : Dialect}

/-- A text that is cut into blanks and words is written as they are. -/
theorem Writes.fixed {s : String} (ps : List Piece) (hf : ps.all Piece.isFixed = true)
    (h : s = fixedText ps) : Writes d (Writing.push s) ⟨ps, none⟩ := fun w => by
  rw [h]
  exact WritesTo.modify (Writer.push_fixedText d w hf)

/-- A word between blanks is pushed as one text. -/
theorem Writes.spaced {s word : String} (h : s = " " ++ word ++ " ") :
    Writes d (Writing.push s) ⟨[.blank, .word word, .blank], none⟩ :=
  Writes.fixed _ rfl (by simp [fixedText, h, String.append_assoc])

/-- What is written between the members of a group is its combinator between blanks. -/
theorem Writes.separator (c : Combinator) :
    Writes d (Writing.push c.separator) ⟨c.pieces, none⟩ :=
  Writes.spaced (by cases c <;> rfl)

theorem Writes.comma : Writes d (Writing.push ", ") ⟨commaPieces, none⟩ :=
  Writes.fixed _ rfl rfl

/-- Values are written as a list of marks. -/
theorem Writes.markList (vs : List Value) :
    Writes d (Writing.list ", " (fun v => discard (Writing.value d v)) vs) (markList vs) :=
  Writes.list Writes.comma vs fun v _ => Writes.value v

/-- **Writing a comparison writes its draft**, by the cases of operator and operand. -/
theorem Writes.comparison (field : String) (op : Operator) (operand : Operand) :
    Writes d (writeComparison d field op operand) (comparisonDraft field op operand) := by
  match operand with
  | .single v =>
    rw [writeComparison, comparisonDraft]
    split
    · exact (Writes.seq (Writes.name field) <| Writes.seq (Writes.spaced rfl)
        (Writes.value v)).of_eq rfl
    · exact Writes.throw _
  | .list vs =>
    cases op with
    | member =>
      simp only [writeComparison, comparisonDraft]
      split
      · exact Writes.stop _ _
      · exact (Writes.seq (Writes.name field) <|
          Writes.seq (Writes.fixed [.blank, .word "IN", .blank, .word "("] rfl rfl) <|
            Writes.seq (Writes.markList vs) (Writes.word ")")).of_eq rfl
    | between =>
      rcases vs with _ | ⟨low, _ | ⟨high, _ | ⟨v, vs⟩⟩⟩
      · exact Writes.throw _
      · exact Writes.throw _
      · exact (Writes.seq (Writes.name field) <|
          Writes.seq (Writes.fixed [.blank, .word "BETWEEN", .blank] rfl rfl) <|
          Writes.value_seq low <| Writes.seq (Writes.fixed [.blank, .word "AND", .blank] rfl rfl) <|
          Writes.value_seq high Writes.pure).of_eq rfl
      · exact Writes.throw _
    | _ => exact Writes.throw _

end Writing

/-- **Writing a condition writes its draft**, on every dialect. -/
theorem Condition.write_writes (d : Dialect) (c : Condition) :
    Writing.Writes d (c.write d) c.draft := by
  induction c using Condition.induction with
  | compare field op operand => exact Writing.Writes.comparison field op operand
  | group c members ih =>
    rw [write, draft]
    split
    · exact Writing.Writes.stop _ _
    · rw [writeAll_eq_list, draftAll_eq_join]
      exact Writing.Writes.seq (Writing.Writes.word "(") <|
        Writing.Writes.seq (Writing.Writes.list (Writing.Writes.separator c) members ih)
          (Writing.Writes.word ")")
  | not inner ih =>
    rw [write, draft]
    exact Writing.Writes.seq (Writing.Writes.fixed [.word "NOT", .blank, .word "("] rfl rfl)
      (Writing.Writes.seq ih (Writing.Writes.word ")"))

/-- Conditions side by side are written as their drafts, joined. -/
theorem Condition.list_writes (d : Dialect) (c : Combinator) (cs : List Condition) :
    Writing.Writes d (Writing.list c.separator (write d) cs)
      (Draft.join c.pieces (cs.map draft)) :=
  Writing.Writes.list (Writing.Writes.separator c) cs fun m _ => m.write_writes d

/-- **The statement of a condition by itself is that of its draft**, with a report of its fault. -/
theorem Condition.statement_eq (d : Dialect) (c : Condition) :
    c.statement d =
      ⟨c.draft.statement d, (c.draft.fault?.map (.conditionFailed d.name)).toList⟩ := by
  rw [statement, (c.write_writes d {}).reporting, ← Draft.map_statement_written, Draft.outcome,
    Draft.written]
  cases c.draft.fault? <;> rfl

theorem Condition.statement_value (d : Dialect) (c : Condition) :
    (c.statement d).value = c.draft.statement d := by rw [statement_eq]

end SelectQuery
