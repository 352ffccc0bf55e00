import SelectQuery.Proofs.Draft

/-!
# Proofs/Rendering — the text of a condition without a writer

A condition is written by handing one writer from node to node.  Its text is also a function of the
tree and of the number that its first placeholder gets: `Condition.text` goes by recursion on the
tree, and each member of a group starts at the number at which the one before it has ended.
`Condition.write_text` says that writing appends this text and the values of the leaves, to any
writer and on any dialect.

The bridge is what pieces come to on a dialect (`Spells`), which is additive: the pieces that stand
behind others are numbered from where those end.
-/

namespace SelectQuery

/-! ## What pieces come to -/

/-- **Pieces spell** a text, their marks numbered from `k`, and hold arguments. -/
structure Spells (d : Dialect) (k : Nat) (ps : List Piece) (s : String) (vs : List Value) :
    Prop where
  text : spell d k ps = s.toList
  args : arguments ps = vs

namespace Spells

variable {d : Dialect} {k : Nat} {ps qs : List Piece} {s t : String} {vs us : List Value}

theorem nil : Spells d k [] "" [] := ⟨rfl, rfl⟩

/-- Pieces behind others are numbered from where those end. -/
theorem append (h : Spells d k ps s vs) (h' : Spells d (k + vs.length) qs t us) :
    Spells d k (ps ++ qs) (s ++ t) (vs ++ us) where
  text := by rw [spell_append, h.args, h.text, h'.text, String.toList_append]
  args := by rw [arguments_append, h.args, h'.args]

/-- Blanks and words spell themselves, with no values. -/
theorem fixed (ps : List Piece) (hf : ps.all Piece.isFixed = true) (h : s = fixedText ps) :
    Spells d k ps s [] := by
  subst h
  induction ps with
  | nil => exact nil
  | cons p ps ih =>
    obtain ⟨hp, hps⟩ : p.isFixed = true ∧ ps.all Piece.isFixed = true := by simpa using hf
    obtain ⟨htext, hargs⟩ := ih hps
    cases p with
    | blank => exact ⟨by simp [spell, fixedText, htext], hargs⟩
    | word s => exact ⟨by simp [spell, fixedText, htext], hargs⟩
    | name s => cases hp
    | mark v => cases hp

/-- A name spells its quotation. -/
theorem name (s : String) : Spells d k [.name s] (d.quoteName s) [] :=
  ⟨List.append_nil _, rfl⟩

/-- A mark spells the placeholder with the next number, and keeps its value. -/
theorem mark (v : Value) : Spells d k [.mark v] (d.placeholder k) [v] :=
  ⟨List.append_nil _, rfl⟩

/-- Pieces between words and blanks keep their arguments. -/
theorem enclosed (h : Spells d k ps s vs) (before after : List Piece) {o c : String}
    (hb : before.all Piece.isFixed = true) (ho : o = fixedText before)
    (ha : after.all Piece.isFixed = true) (hc : c = fixedText after) :
    Spells d k (before ++ (ps ++ after)) (o ++ s ++ c) vs := by
  have hall := (fixed (k := k) before hb ho).append (h.append (fixed after ha hc))
  rwa [List.append_nil, List.nil_append, ← String.append_assoc] at hall

end Spells

/-- **Drafts side by side spell** texts, each of them numbered from where the one before it ends. -/
inductive SpellsAll (d : Dialect) : Nat → List Draft → List String → List Value → Prop
  | nil (k : Nat) : SpellsAll d k [] [] []
  | cons {k : Nat} {x : Draft} {xs : List Draft} {t : String} {ts : List String}
      {vs us : List Value} (hf : x.fault? = none) (hx : Spells d k x.pieces t vs)
      (hxs : SpellsAll d (k + vs.length) xs ts us) : SpellsAll d k (x :: xs) (t :: ts) (vs ++ us)

/-- **Joined drafts spell joined texts.** -/
theorem SpellsAll.join {d : Dialect} {k : Nat} {xs : List Draft} {ts : List String}
    {vs : List Value} (h : SpellsAll d k xs ts vs) {separator : List Piece} {s : String}
    (hs : ∀ k, Spells d k separator s []) :
    Spells d k (Draft.join separator xs).pieces (s.intercalate ts) vs := by
  induction h with
  | nil k => rw [String.intercalate_nil]; exact Spells.nil
  | @cons k x xs t ts vs us hx ht hxs ih =>
    cases hxs with
    | nil =>
      rw [String.intercalate_singleton, List.append_nil]
      exact ht
    | cons hy hu hrest =>
      rw [Draft.pieces_join_cons_cons hx, String.intercalate_cons_cons, String.append_assoc]
      exact ht.append ((hs (k + vs.length)).append ih)

/-! ## The text and the values of a tree -/

/-- The text of a comparison: the field, the operator, and placeholders numbered from `k`, one for
each value. -/
def comparisonText (d : Dialect) (k : Nat) (field : String) (op : Operator) : Operand → String
  | .single _ => d.quoteName field ++ " " ++ op.sql ++ " " ++ d.placeholder k
  | .list vs =>
    let marks := (List.range' k vs.length).map d.placeholder
    d.quoteName field ++ " " ++ op.sql ++ " " ++
      if op = .between then " AND ".intercalate marks else "(" ++ ", ".intercalate marks ++ ")"

namespace Condition

mutual

/-- **The text of a condition**, its placeholders numbered from `k`. -/
def text (d : Dialect) (k : Nat) : Condition → String
  | compare field op x => comparisonText d k field op x
  | group c members => "(" ++ c.separator.intercalate (texts d k members) ++ ")"
  | not inner => "NOT (" ++ text d k inner ++ ")"

/-- The texts of conditions, numbered on from one to the next. -/
def texts (d : Dialect) (k : Nat) : List Condition → List String
  | [] => []
  | m :: ms => text d k m :: texts d (k + m.placeholders) ms

end

mutual

/-- **The values of the leaves**, from left to right. -/
def values : Condition → List Value
  | compare _ _ x => x.values
  | group _ members => valuesAll members
  | not inner => values inner

/-- The values of the leaves of conditions, from left to right. -/
def valuesAll : List Condition → List Value
  | [] => []
  | m :: ms => values m ++ valuesAll ms

end

mutual

/-- **There is a placeholder for each value.** -/
theorem length_values : ∀ c : Condition, c.values.length = c.placeholders
  | compare _ _ _ => rfl
  | group _ members => length_valuesAll members
  | not inner => length_values inner

/-- Conditions have a value for each placeholder. -/
theorem length_valuesAll : ∀ cs : List Condition, (valuesAll cs).length = placeholdersAll cs
  | [] => rfl
  | c :: cs => by
    rw [valuesAll, List.length_append, length_values c, length_valuesAll cs, placeholdersAll]

end

end Condition

/-! ## The draft of a condition spells its text -/

variable {d : Dialect}

theorem spells_comma (k : Nat) : Spells d k commaPieces ", " [] := Spells.fixed commaPieces rfl rfl

/-- The pieces between two members of a group spell its separator. -/
theorem spells_separator (c : Combinator) (k : Nat) : Spells d k c.pieces c.separator [] :=
  Spells.fixed c.pieces rfl (by cases c <;> rfl)

/-- Marks side by side spell placeholders with numbers in a row. -/
theorem spellsAll_marks (k : Nat) (vs : List Value) :
    SpellsAll d k (vs.map fun v => ⟨[.mark v], none⟩)
      ((List.range' k vs.length).map d.placeholder) vs := by
  induction vs generalizing k with
  | nil => exact .nil k
  | cons v vs ih =>
    change SpellsAll d k _ _ ([v] ++ vs)
    exact .cons rfl (Spells.mark v) (ih (k + 1))

/-- What a field is compared with stands behind field and operator. -/
theorem Spells.compared {k : Nat} {ps : List Piece} {s : String} {vs : List Value}
    (h : Spells d k ps s vs) (field : String) (op : Operator) :
    Spells d k (.name field :: .blank :: .word op.sql :: .blank :: ps)
      (d.quoteName field ++ " " ++ op.sql ++ " " ++ s) vs where
  text := by simp [spell, h.text]
  args := h.args

/-- **The draft of a comparison spells its text.** -/
theorem spells_comparisonDraft {field : String} {op : Operator} {x : Operand} (h : op.Fits x)
    (k : Nat) :
    Spells d k (comparisonDraft field op x).pieces (comparisonText d k field op x) x.values := by
  cases h with
  | single hop v =>
    rw [comparisonDraft, if_pos hop]
    exact (Spells.mark v).compared field op
  | member v vs =>
    have hmarks := (spellsAll_marks (d := d) k (v :: vs)).join spells_comma
    rw [pieces_member]
    exact (hmarks.enclosed [.word "("] [.word ")"] rfl rfl rfl rfl).compared field .member
  | between low high =>
    have hmarks := (spellsAll_marks (d := d) k [low, high]).join (spells_separator .and)
    exact hmarks.compared field .between

namespace Condition

theorem spellsAll_draft {cs : List Condition} (hwell : ∀ c ∈ cs, c.WellFormed)
    (h : ∀ c ∈ cs, ∀ k, Spells d k c.draft.pieces (c.text d k) c.values) (k : Nat) :
    SpellsAll d k (cs.map draft) (texts d k cs) (valuesAll cs) := by
  induction cs generalizing k with
  | nil => exact .nil k
  | cons c cs ih =>
    refine .cons (fault?_draft.mpr (hwell c List.mem_cons_self)) (h c List.mem_cons_self k) ?_
    rw [length_values]
    exact ih (fun x hx => hwell x (List.mem_cons_of_mem c hx))
      (fun x hx => h x (List.mem_cons_of_mem c hx)) _

/-- **The draft of a condition spells its text.** -/
theorem spells_draft {c : Condition} (h : c.WellFormed) (k : Nat) :
    Spells d k c.draft.pieces (c.text d k) c.values := by
  induction h generalizing k with
  | compare hfit => exact spells_comparisonDraft hfit k
  | @group c members hne hm ih =>
    have hjoin := (spellsAll_draft hm (fun m hm k => ih m hm k) k).join (spells_separator c)
    rw [pieces_draft_group hne hm]
    exact hjoin.enclosed [.word "("] [.word ")"] rfl rfl rfl rfl
  | not hin ih =>
    rw [pieces_draft_not hin]
    exact (ih k).enclosed [.word "NOT", .blank, .word "("] [.word ")"] rfl rfl rfl rfl

/-- Conditions side by side spell their texts, joined. -/
theorem spells_join (c : Combinator) {cs : List Condition} (h : ∀ m ∈ cs, m.WellFormed) (k : Nat) :
    Spells d k (Draft.join c.pieces (cs.map draft)).pieces (c.separator.intercalate (texts d k cs))
      (valuesAll cs) :=
  (spellsAll_draft h (fun m hm => spells_draft (h m hm)) k).join (spells_separator c)

end Condition

/-! ## Writing appends the text -/

namespace Writer

/-- The writer with a text and arguments behind what it holds. -/
def extend (w : Writer) (s : String) (vs : List Value) : Writer where
  text := w.text ++ s
  args := w.args ++ vs
  next := w.next + vs.length

/-- **Pieces that spell a text extend the writer by it**, and by its values. -/
theorem putAll_eq_extend {w : Writer} {ps : List Piece} {s : String} {vs : List Value}
    (h : Spells d w.next ps s vs) : w.putAll d ps = w.extend s vs := by
  have htext : (w.putAll d ps).text = w.text ++ s := by
    rw [← String.toList_inj, text_putAll, h.text, String.toList_append]
  have hargs : (w.putAll d ps).args = w.args ++ vs := by rw [args_putAll, h.args]
  have hnext : (w.putAll d ps).next = w.next + vs.length := by rw [next_putAll, h.args]
  rw [extend, ← htext, ← hargs, ← hnext]

end Writer

/-- A writing whose draft spells a text appends it. -/
theorem Writing.Writes.traced_eq {x : Writing Unit} {X : Draft} (hx : Writing.Writes d x X)
    (hf : X.fault? = none) {w : Writer} {s : String} {vs : List Value}
    (hs : Spells d w.next X.pieces s vs) : x.traced w = Pure.pure (.ok (), w.extend s vs) := by
  rw [hx w, Draft.outcome, hf, Writer.putAll_eq_extend hs]

namespace Condition

variable {c : Condition}

/-- A well-formed condition is written as its text, numbered from where the counter stands. -/
theorem on_write (h : c.WellFormed) (w : Writer) :
    (c.write d).on w = (.ok (), w.extend (c.text d w.next) c.values) :=
  congrArg Traced.value ((c.write_writes d).traced_eq (fault?_draft.mpr h) (spells_draft h w.next))

/-- By itself it is numbered from one. -/
theorem statement_of_wellFormed (h : c.WellFormed) :
    (c.statement d).value = .ok ⟨c.text d 1, c.values⟩ := by
  have hs := spells_draft (d := d) h 1
  rw [statement_value, Draft.statement, fault?_draft.mpr h]
  dsimp only
  rw [hs.text, hs.args, String.ofList_toList]

/-- **Writing a condition appends its text** and the values of its leaves, to any writer and on any
dialect; the condition by itself is numbered from one. -/
theorem write_text (d : Dialect) {c : Condition} (h : c.WellFormed) :
    (∀ w : Writer, (c.write d).on w = (.ok (), {
      text := w.text ++ c.text d w.next
      args := w.args ++ c.values
      next := w.next + c.placeholders })) ∧
    (c.statement d).value = .ok ⟨c.text d 1, c.values⟩ := by
  refine ⟨fun w => ?_, statement_of_wellFormed h⟩
  rw [on_write h, Writer.extend, length_values]

end Condition

/-- A dialect of no database. -/
def Dialect.colons : Dialect where
  name := "colons"
  quoteName s := "<" ++ s ++ ">"
  placeholder k := ":" ++ toString (10 * k)
  pageClause _ := .error (.unsupported "colons" "pages")

/-- A condition of every kind. -/
def Condition.nested : Condition :=
  .not (.any [.compare "a" .between (.list [.ofText "u", .null .date]),
    .all [.compare "b" .member (.list [.ofText "v", .ofText "w"])],
    .compare "c" .like (.single (.ofText "x"))])

theorem Condition.wellFormed_nested : nested.WellFormed := by
  refine .not (.group (List.cons_ne_nil _ _) ?_)
  simp only [List.forall_mem_cons]
  refine ⟨.compare (.between _ _), .group (List.cons_ne_nil _ _) ?_, .compare (.single rfl _), ?_⟩
  · simpa using .compare (.member _ _)
  · simp

theorem Condition.nested_text :
    nested.WellFormed ∧
      (nested.write .colons).on { text := "<z> = :10 AND ", args := [.ofText "t"], next := 2 } =
        (.ok (), {
          text := "<z> = :10 AND " ++
            "NOT ((<a> BETWEEN :20 AND :30 OR (<b> IN (:40, :50)) OR <c> LIKE :60))"
          args := [.ofText "t", .ofText "u", .null .date, .ofText "v", .ofText "w", .ofText "x"]
          next := 7 }) ∧
        (nested.statement .colons).value =
          .ok ⟨"NOT ((<a> BETWEEN :10 AND :20 OR (<b> IN (:30, :40)) OR <c> LIKE :50))",
            [.ofText "u", .null .date, .ofText "v", .ofText "w", .ofText "x"]⟩ :=
  have h := write_text .colons wellFormed_nested
  ⟨wellFormed_nested, h.1 _, h.2⟩

end SelectQuery
