import SelectQuery.Operator
import SelectQuery.Value.Basic

/-!
# Condition — filters as trees

A condition compares a field with an operand, or groups conditions under a combinator, or negates
one. Trees of any shape can be built, also such as have no SQL text: an empty group, or an operator
with an operand that does not fit it. What is wrong with a tree is said when it is written
(`Condition/Text`).
-/

namespace SelectQuery

/-- What a field is compared with. -/
inductive Operand where
  | single (v : Value)
  | list (vs : List Value)

namespace Operand

/-- The values of an operand in order. -/
def values : Operand → List Value
  | single v => [v]
  | list vs => vs

/-- How many values an operand has. -/
def size (x : Operand) : Nat := x.values.length

/-- An operand without values. -/
def isEmpty (x : Operand) : Bool := x.size == 0

instance : BEq Operand where
  beq
    | single a, single b => a == b
    | list as, list bs => as == bs
    | _, _ => false

end Operand

/-- A filter. -/
inductive Condition where
  | compare (field : String) (op : Operator) (operand : Operand)
  | group (combinator : Combinator) (members : List Condition)
  | not (inner : Condition)

namespace Condition

/-- All of the conditions hold. -/
def all (members : List Condition) : Condition := group .and members

/-- At least one of the conditions holds. -/
def any (members : List Condition) : Condition := group .or members

/-- Both conditions hold. -/
def and (a b : Condition) : Condition := all [a, b]

/-- One of two conditions holds. -/
def or (a b : Condition) : Condition := any [a, b]

mutual

/-- How many placeholders the text of a condition has. -/
def placeholders : Condition → Nat
  | compare _ _ operand => operand.size
  | group _ members => placeholdersAll members
  | not inner => inner.placeholders

/-- How many placeholders the texts of conditions have together. -/
def placeholdersAll : List Condition → Nat
  | [] => 0
  | c :: cs => c.placeholders + placeholdersAll cs

end

mutual

/-- Equality of trees: the same shape, with equal values at the leaves. -/
def equal : Condition → Condition → Bool
  | compare f op x, compare g oq y => f == g && op == oq && x == y
  | group a xs, group b ys => a == b && equalAll xs ys
  | not x, not y => equal x y
  | _, _ => false

/-- Equality of lists of trees. -/
def equalAll : List Condition → List Condition → Bool
  | [], [] => true
  | x :: xs, y :: ys => equal x y && equalAll xs ys
  | _, _ => false

end

instance : BEq Condition := ⟨equal⟩

end Condition

/-- A column, from which comparisons are made. -/
structure Column where
  name : String
  deriving DecidableEq, Repr

namespace Column

/-- Compares the column with one value. -/
def compareWith (c : Column) (op : Operator) (v : Value) : Condition :=
  .compare c.name op (.single v)

/-- The column equals the value. -/
def eq (c : Column) (v : Value) : Condition := c.compareWith .eq v

/-- The column differs from the value. -/
def ne (c : Column) (v : Value) : Condition := c.compareWith .ne v

/-- The column exceeds the value. -/
def gt (c : Column) (v : Value) : Condition := c.compareWith .gt v

/-- The column is below the value. -/
def lt (c : Column) (v : Value) : Condition := c.compareWith .lt v

/-- The column is at least the value. -/
def gte (c : Column) (v : Value) : Condition := c.compareWith .gte v

/-- The column is at most the value. -/
def lte (c : Column) (v : Value) : Condition := c.compareWith .lte v

/-- The column matches the pattern. -/
def like (c : Column) (pattern : Value) : Condition := c.compareWith .like pattern

/-- The column is one of the values. -/
def isIn (c : Column) (vs : List Value) : Condition := .compare c.name .member (.list vs)

/-- The column lies between two values, both included. -/
def between (c : Column) (low high : Value) : Condition :=
  .compare c.name .between (.list [low, high])

end Column

end SelectQuery
