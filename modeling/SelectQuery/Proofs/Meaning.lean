import SelectQuery.Proofs.Reader
import SelectQuery.Proofs.Spacing

/-!
# Proofs/Meaning — a filter means what its conditions mean

In SQL a comparison is true, false or unknown, and connectives are those of Kleene.  Given the truth
values of all comparisons, a condition has one (`Condition.eval`), and so has what a reader
understands of a text (`Expr.eval`).  They are the same, whichever connective the reader takes to be
the tighter one.
-/

namespace SelectQuery

/-! ## Truth values -/

/-- Truth in SQL. -/
inductive Truth where
  | no
  | unknown
  | yes
  deriving DecidableEq, Repr

namespace Truth

/-- The contrary. -/
def not : Truth → Truth
  | no => yes
  | unknown => unknown
  | yes => no

/-- The lesser of two truth values. -/
def and : Truth → Truth → Truth
  | yes, t => t
  | no, _ => no
  | unknown, no => no
  | unknown, _ => unknown

/-- The greater of two truth values. -/
def or : Truth → Truth → Truth
  | no, t => t
  | yes, _ => yes
  | unknown, yes => yes
  | unknown, _ => unknown

end Truth

namespace Combinator

/-- What a connective makes of two truth values. -/
def combine : Combinator → Truth → Truth → Truth
  | and => Truth.and
  | or => Truth.or

/-- What a connective makes of none. -/
def neutral : Combinator → Truth
  | and => .yes
  | or => .no

theorem combine_neutral (c : Combinator) (t : Truth) : c.combine t c.neutral = t := by
  cases c <;> cases t <;> rfl

end Combinator

/-- The truth values of all comparisons. -/
abbrev Valuation := String → Operator → Operand → Truth

variable (ρ : Valuation)

namespace Condition

mutual

/-- The truth value of a condition. -/
def eval : Condition → Truth
  | compare field op operand => ρ field op operand
  | group c members => evalAll c members
  | not inner => inner.eval.not

/-- The truth value of conditions under a connective. -/
def evalAll (c : Combinator) : List Condition → Truth
  | [] => c.neutral
  | m :: ms => c.combine m.eval (evalAll c ms)

end

end Condition

namespace Expr

mutual

/-- The truth value of what is read. -/
def eval : Expr → Truth
  | test field op operand => ρ field op operand
  | not e => e.eval.not
  | paren e => e.eval
  | chain c es => evalAll c es

/-- The truth value of expressions under a connective. -/
def evalAll (c : Combinator) : List Expr → Truth
  | [] => c.neutral
  | e :: es => c.combine e.eval (evalAll c es)

end

variable {ρ}

theorem eval_joined (c : Combinator) (es : List Expr) : (joined c es).eval ρ = evalAll ρ c es := by
  match es with
  | [] => rfl
  | [e] =>
    rw [joined, evalAll, evalAll, c.combine_neutral]
  | _ :: _ :: _ => rfl

/-- Conditions that are read right one by one are read right together. -/
theorem evalAll_map_expr (c : Combinator) {ms : List Condition}
    (h : ∀ m ∈ ms, m.expr.eval ρ = m.eval ρ) :
    evalAll ρ c (ms.map Condition.expr) = Condition.evalAll ρ c ms := by
  induction ms with
  | nil => rfl
  | cons m ms ih =>
    rw [List.map_cons, evalAll, Condition.evalAll, h m List.mem_cons_self,
      ih fun x hx => h x (List.mem_cons_of_mem m hx)]

/-- **A condition means what it is read as.** -/
theorem eval_expr (m : Condition) : m.expr.eval ρ = m.eval ρ := by
  induction m using Condition.induction with
  | compare field op operand => rfl
  | group c members ih =>
    rw [Condition.expr, Condition.exprs_eq_map, eval, eval_joined, evalAll_map_expr c ih,
      Condition.eval]
  | not inner ih => rw [Condition.expr, eval, eval, ih, Condition.eval]

end Expr

/-! ## Reading a statement -/

/-- What stands behind the first `WHERE`. -/
def behindWhere : List (Token Value) → Option (List (Token Value))
  | [] => none
  | .word w :: ts => if w = "WHERE" then some ts else behindWhere ts
  | .name _ :: ts => behindWhere ts
  | .mark _ :: ts => behindWhere ts

namespace Database

/-- The condition that tokens make up, all of them. -/
def understand (tight : Combinator) (ts : List (Token Value)) : Option Expr :=
  match Reading.chain tight.order tight.order ts with
  | some (e, []) => some e
  | _ => none

/-- A condition by itself, as it is read if `tight` is the tighter connective. -/
def readCondition (b : Database) (tight : Combinator) (s : Statement) : Option Expr :=
  (b.read s).bind (understand tight)

/-- The filter of a statement, as it is read if `tight` is the tighter connective. -/
def readFilter (b : Database) (tight : Combinator) (s : Statement) : Option Expr :=
  ((b.read s).bind behindWhere).bind (understand tight)

theorem understand_join (tight c : Combinator) {ms : List Condition} (hne : ms ≠ [])
    (hwell : ∀ m ∈ ms, m.WellFormed) :
    understand tight (tokens (Draft.join c.pieces (ms.map Condition.draft)).pieces) =
      some (.joined c (ms.map Condition.expr)) := by
  have hchain := Reading.chain_join tight c hne hwell Reading.ends_nil
  rw [List.append_nil] at hchain
  rw [understand, hchain]

/-- Nothing before the filter of a count looks like its beginning. -/
theorem behindWhere_count {q : Query} (hne : q.conditions ≠ []) (hf : q.count.fault? = none) :
    behindWhere (tokens q.count.pieces) = some (tokens
      (Draft.join Combinator.and.pieces (q.conditions.map Condition.draft)).pieces) := by
  rw [Query.pieces_count hf, Query.pieces_filterDraft hne]
  cases htable : q.table <;>
    simp [Query.headDraft, Query.countPieces, Table.pieces, htable, Draft.pieces_append,
      behindWhere]

end Database

/-- A query with every kind of condition, one of its names a piece of SQL. -/
def Query.mixed : Query where
  table := .plain "t WHERE 1 = 1"
  dialect := .sqlserver
  conditions := [.not (.compare "] OR [" .eq (.single (.ofText "x"))),
    .compare "a" .between (.list [.ofText "y", .ofText "z"]),
    .any [.all [.compare "b" .member (.list [.ofText "u", .ofText "v"])],
      .compare "c" .like (.single (.ofText "w"))]]

end SelectQuery
