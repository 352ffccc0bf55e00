import SelectQuery.Proofs.Draft

/-!
# Proofs/Reader — conditions as SQL reads them

A reader of SQL sees tokens and has to find out by itself how they belong together.  `Reading.chain`
goes down from the connective that binds most loosely to the one that binds most tightly and then to
operands: comparisons, negations, and whatever stands in parentheses.  Which connective is the
tighter one is a parameter.

`Reading.operand_draft` says that an operand that was written as a condition is read as that
condition and ends where it ends, whatever stands behind it; `Reading.chain_join` says the same of
conditions side by side.  Neither depends on which connective is the tighter one.
-/

namespace SelectQuery

/-- A condition as a reader understands it. -/
inductive Expr where
  | test (field : String) (op : Operator) (operand : Operand)
  | not (e : Expr)
  | paren (e : Expr)
  /-- Expressions with one connective between all neighbours. -/
  | chain (c : Combinator) (es : List Expr)

namespace Expr

/-- Expressions with a connective between them, if there are several. -/
def joined (c : Combinator) : List Expr → Expr
  | [e] => e
  | es => chain c es

end Expr

/-! ## The reader -/

/-- Reads something off the front of tokens. -/
abbrev Reading (α : Type) := List (Token Value) → Option (α × List (Token Value))

namespace Reading

variable {α β : Type}

/-- Items with a word between neighbours. -/
def sepBy (w : String) (item : Reading α) : Reading (List α)
  | ts =>
    match item ts with
    | none => none
    | some (a, .word w' :: rest) =>
      -- Nothing that is read grows, so the second test only serves the termination.
      if w' = w ∧ rest.length < ts.length then
        (sepBy w item rest).map fun (as, rest) => (a :: as, rest)
      else some ([a], .word w' :: rest)
    | some (a, rest) => some ([a], rest)
termination_by ts => ts.length
decreasing_by
  rename_i h
  exact h.2

/-- A mark. -/
def mark : Reading Value
  | .mark v :: rest => some (v, rest)
  | _ => none

/-- The rest of a comparison, behind its field. -/
def comparison (field : String) : Reading Expr
  | .word "IN" :: .word "(" :: ts =>
    match sepBy "," mark ts with
    | some (vs, .word ")" :: rest) => some (.test field .member (.list vs), rest)
    | _ => none
  | .word "BETWEEN" :: .mark low :: .word "AND" :: .mark high :: rest =>
    some (.test field .between (.list [low, high]), rest)
  | .word w :: .mark v :: rest =>
    (Operator.all.find? fun op => op.takesSingle && op.sql == w).map fun op =>
      (.test field op (.single v), rest)
  | _ => none

mutual

/-- A comparison, a negation, or an expression in parentheses. -/
def operand (order : List Combinator) : Reading Expr
  | .word "NOT" :: ts => (operand order ts).map fun (e, rest) => (.not e, rest)
  | .word "(" :: ts =>
    match chain order order ts with
    | some (e, .word ")" :: rest) => some (.paren e, rest)
    | _ => none
  | .name field :: ts => comparison field ts
  | _ => none
termination_by ts => (ts.length, 0)

/-- Operands with connectives between them, the one that binds most loosely first. -/
def chain (order : List Combinator) : List Combinator → Reading Expr
  | [], ts => operand order ts
  | c :: cs, ts => (links order c cs ts).map fun (es, rest) => (.joined c es, rest)
termination_by cs ts => (ts.length, 2 * cs.length + 1)

/-- What one connective links; `links_eq_sepBy` says it in other words. -/
def links (order : List Combinator) (c : Combinator) (cs : List Combinator) : Reading (List Expr)
  | ts =>
    match chain order cs ts with
    | none => none
    | some (e, .word w :: rest) =>
      if w = c.sql ∧ rest.length < ts.length then
        (links order c cs rest).map fun (es, rest) => (e :: es, rest)
      else some ([e], .word w :: rest)
    | some (e, rest) => some ([e], rest)
termination_by ts => (ts.length, 2 * cs.length + 2)
decreasing_by
  · decreasing_tactic
  · rename_i h
    exact Prod.Lex.left _ _ h.2

end

/-- **What a connective links is a list** with its word between the items. -/
theorem links_eq_sepBy (order : List Combinator) (c : Combinator) (cs : List Combinator)
    (ts : List (Token Value)) : links order c cs ts = sepBy c.sql (chain order cs) ts := by
  rw [links, sepBy]
  match chain order cs ts with
  | none => rfl
  | some (e, []) => rfl
  | some (e, .name _ :: _) => rfl
  | some (e, .mark _ :: _) => rfl
  | some (e, .word w :: rest) =>
    by_cases h : w = c.sql ∧ rest.length < ts.length
    · simp only [if_pos h, links_eq_sepBy order c cs rest]
    · simp only [if_neg h]
termination_by ts.length
decreasing_by exact h.2

end Reading

/-- The connectives from the loosest to the tightest, if this one is the tightest. -/
def Combinator.order : Combinator → List Combinator
  | and => [or, and]
  | or => [and, or]

theorem Combinator.sql_injective : Function.Injective Combinator.sql := by
  intro a b h
  cases a <;> cases b <;> first | rfl | exact absurd h (by decide)

namespace Condition

mutual

/-- How a condition is read. -/
def expr : Condition → Expr
  | compare field op operand => .test field op operand
  | group c members => .paren (.joined c (exprs members))
  | not inner => .not (.paren inner.expr)

/-- How conditions are read. -/
def exprs : List Condition → List Expr
  | [] => []
  | c :: cs => c.expr :: exprs cs

end

theorem exprs_eq_map (cs : List Condition) : exprs cs = cs.map expr := by
  induction cs with
  | nil => rfl
  | cons c cs ih => rw [exprs, ih, List.map_cons]

end Condition

/-! ## Lists of items -/

namespace Reading

variable {α β : Type} {w : String} {item : Reading α} {ts rest : List (Token Value)} {a : α}

/-- A list ends at the first item with no separator behind it. -/
theorem sepBy_stop (h : item ts = some (a, rest)) (hs : rest.head? ≠ some (.word w)) :
    sepBy w item ts = some ([a], rest) := by
  rw [sepBy, h]
  split
  · next heq => cases heq
  · next w' rest' heq =>
    cases heq
    rw [if_neg]
    rintro ⟨rfl, -⟩
    exact hs rfl
  · next heq => cases heq; rfl

theorem sepBy_go (h : item ts = some (a, .word w :: rest)) (hlt : rest.length < ts.length) :
    sepBy w item ts = (sepBy w item rest).map fun (as, rest) => (a :: as, rest) := by
  rw [sepBy, h]
  simp [hlt]

/-- **A list is read item by item**, if each of them is read where it stands: before the word
between neighbours, or before the rest. -/
theorem sepBy_join {separator : List Piece} (hsep : tokens separator = [.word w])
    {draft : β → Draft} {value : β → α} {xs : List β} (hne : xs ≠ [])
    (hf : ∀ x ∈ xs, (draft x).fault? = none)
    (hread : ∀ x ∈ xs, ∀ next, next = rest ∨ next.head? = some (.word w) →
      item (tokens (draft x).pieces ++ next) = some (value x, next))
    (hs : rest.head? ≠ some (.word w)) :
    sepBy w item (tokens (Draft.join separator (xs.map draft)).pieces ++ rest) =
      some (xs.map value, rest) := by
  match xs, hne with
  | [x], _ => exact sepBy_stop (hread x (List.mem_singleton_self x) rest (.inl rfl)) hs
  | x :: y :: xs, _ =>
    let tail := tokens (Draft.join separator ((y :: xs).map draft)).pieces ++ rest
    have htokens : tokens (Draft.join separator ((x :: y :: xs).map draft)).pieces ++ rest =
        tokens (draft x).pieces ++ .word w :: tail := by
      simp [tail, Draft.pieces_join_cons_cons (hf x List.mem_cons_self), hsep]
    have htail : sepBy w item tail = some ((y :: xs).map value, rest) :=
      sepBy_join hsep (List.cons_ne_nil y xs) (fun z hz => hf z (List.mem_cons_of_mem x hz))
        (fun z hz => hread z (List.mem_cons_of_mem x hz)) hs
    have hitem := hread x List.mem_cons_self (.word w :: tail) (.inr rfl)
    rw [htokens, sepBy_go hitem (by simp; omega), htail]
    rfl

/-! ## Reading back what was written -/

/-- **A comparison is read as it was written**, whatever stands behind it. -/
theorem comparison_draft {field : String} {op : Operator} {x : Operand} (h : op.Fits x)
    (order : List Combinator) (rest : List (Token Value)) :
    operand order (tokens (comparisonDraft field op x).pieces ++ rest) =
      some (.test field op x, rest) := by
  cases h with
  | single hop v =>
    rw [comparisonDraft, if_pos hop]
    cases op <;> first | exact absurd hop (by decide) | (rw [operand.eq_def]; rfl)
  | member v vs =>
    have hmarks : sepBy "," mark (tokens (markList (v :: vs)).pieces ++ .word ")" :: rest) =
        some ((v :: vs).map id, .word ")" :: rest) :=
      sepBy_join rfl (List.cons_ne_nil v vs) (fun _ _ => rfl) (fun _ _ _ _ => rfl) (by simp)
    rw [List.map_id] at hmarks
    rw [pieces_member]
    simp [operand, comparison, hmarks]
  | between low high =>
    rw [operand.eq_def]
    rfl

variable {order cs : List Combinator} {c : Combinator} {e : Expr}

/-- What comes next is no connective. -/
def Ends (rest : List (Token Value)) : Prop := ∀ c : Combinator, rest.head? ≠ some (.word c.sql)

theorem ends_nil : Ends [] := fun _ h => nomatch h

theorem ends_close (rest : List (Token Value)) : Ends (.word ")" :: rest) := fun c => by
  cases c <;> simp [Combinator.sql]

/-- A connective that does not occur is passed over. -/
theorem chain_cons (h : chain order cs ts = some (e, rest))
    (hs : rest.head? ≠ some (.word c.sql)) : chain order (c :: cs) ts = some (e, rest) := by
  rw [chain, links_eq_sepBy, sepBy_stop h hs]
  rfl

theorem chain_of_operand (h : operand order ts = some (e, rest))
    (hs : ∀ c ∈ cs, rest.head? ≠ some (.word c.sql)) : chain order cs ts = some (e, rest) := by
  induction cs with
  | nil => rw [chain, h]
  | cons c cs ih =>
    exact chain_cons (ih fun c' hc' => hs c' (List.mem_cons_of_mem c hc')) (hs c List.mem_cons_self)

/-- **Conditions side by side are read one by one**, if each of them is read where it stands. -/
theorem links_join (hc : c ∉ cs) {ms : List Condition} (hne : ms ≠ [])
    (hwell : ∀ m ∈ ms, m.WellFormed)
    (hread : ∀ m ∈ ms, ∀ rest, operand order (tokens m.draft.pieces ++ rest) = some (m.expr, rest))
    (hs : Ends rest) :
    links order c cs (tokens (Draft.join c.pieces (ms.map Condition.draft)).pieces ++ rest) =
      some (ms.map Condition.expr, rest) := by
  rw [links_eq_sepBy]
  refine sepBy_join rfl hne (fun m hm => Condition.fault?_draft.mpr (hwell m hm)) ?_ (hs c)
  intro m hm next hnext
  refine chain_of_operand (hread m hm next) fun c' hc' heq => ?_
  rcases hnext with rfl | hnext
  · exact hs c' heq
  · have hsql : c.sql = c'.sql := Token.word.inj (Option.some.inj (hnext.symm.trans heq))
    exact hc (Combinator.sql_injective hsql ▸ hc')

/-- Under either order a list of conditions is read as what its connective links. -/
theorem chain_join_of_read {tight : Combinator} {ms : List Condition} (hne : ms ≠ [])
    (hwell : ∀ m ∈ ms, m.WellFormed)
    (hread : ∀ m ∈ ms, ∀ rest,
      operand tight.order (tokens m.draft.pieces ++ rest) = some (m.expr, rest))
    (hs : Ends rest) :
    chain tight.order tight.order
        (tokens (Draft.join c.pieces (ms.map Condition.draft)).pieces ++ rest) =
      some (.joined c (ms.map Condition.expr), rest) := by
  have hchain {cs : List Combinator} (hc : c ∉ cs) :
      chain tight.order (c :: cs)
          (tokens (Draft.join c.pieces (ms.map Condition.draft)).pieces ++ rest) =
        some (.joined c (ms.map Condition.expr), rest) := by
    rw [chain, links_join hc hne hwell hread hs]
    rfl
  -- The connective is either the looser one or, below one that does not occur, the tighter one.
  cases tight <;> cases c <;>
    first | exact hchain (by decide) | exact chain_cons (hchain (by decide)) (hs _)

/-- **An operand that was written as a condition is read as this condition**, whatever stands
behind it. -/
theorem operand_draft (tight : Combinator) {m : Condition} (h : m.WellFormed)
    (rest : List (Token Value)) :
    operand tight.order (tokens m.draft.pieces ++ rest) = some (m.expr, rest) := by
  induction h generalizing rest with
  | compare hfit => exact comparison_draft hfit tight.order rest
  | @group c members hne hm ih =>
    have hinner := chain_join_of_read (c := c) hne hm ih (ends_close rest)
    rw [Condition.pieces_draft_group hne hm]
    simp [operand, hinner, Condition.expr, Condition.exprs_eq_map]
  | @not inner hin ih =>
    have hinner : chain tight.order tight.order (tokens inner.draft.pieces ++ .word ")" :: rest) =
        some (inner.expr, .word ")" :: rest) :=
      chain_of_operand (ih _) fun c _ => ends_close rest c
    rw [Condition.pieces_draft_not hin]
    simp [operand, hinner, Condition.expr]

/-- **Conditions side by side are read as what their connective links.** -/
theorem chain_join (tight c : Combinator) {ms : List Condition} (hne : ms ≠ [])
    (hwell : ∀ m ∈ ms, m.WellFormed) (hs : Ends rest) :
    chain tight.order tight.order
        (tokens (Draft.join c.pieces (ms.map Condition.draft)).pieces ++ rest) =
      some (.joined c (ms.map Condition.expr), rest) :=
  chain_join_of_read hne hwell (fun m hm => operand_draft tight (hwell m hm)) hs

end Reading

end SelectQuery
