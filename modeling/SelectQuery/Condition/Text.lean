import SelectQuery.Condition
import SelectQuery.Writer

/-!
# Condition/Text — filters in SQL

A comparison is its field, its operator and one placeholder for each value of its operand; a group
stands in parentheses, a negation is `NOT` before parentheses. So the text of a tree reads back as
the tree whatever the precedence of the connectives. A node that has no text fails before anything
of it is written.
-/

namespace SelectQuery

/-- The text between the ends of a range. -/
def rangeSeparator : String := " AND "

/-- Writes a comparison, if the operand fits the operator. -/
def writeComparison (d : Dialect) (field : String) (op : Operator) : Operand → Writing Unit
  | .single v => do
    if op.takesSingle then
      Writing.name d field
      Writing.push (" " ++ op.sql ++ " ")
      let _ ← Writing.value d v
    else throw (.operandMismatch field op .list)
  | .list vs => do
    match op with
    | .member =>
      if vs.isEmpty then throw (.emptyMembership field)
      Writing.name d field
      Writing.push " IN ("
      Writing.list ", " (fun v => discard (Writing.value d v)) vs
      Writing.push ")"
    | .between =>
      match vs with
      | [low, high] =>
        Writing.name d field
        Writing.push " BETWEEN "
        let _ ← Writing.value d low
        Writing.push rangeSeparator
        let _ ← Writing.value d high
      | _ => throw (.rangeArity field vs.length)
    | _ => throw (.operandMismatch field op .single)

namespace Condition

mutual

/-- Writes a condition. -/
def write (d : Dialect) : Condition → Writing Unit
  | compare field op operand => writeComparison d field op operand
  | group combinator members => do
    if members.isEmpty then throw (.emptyGroup combinator)
    Writing.push "("
    writeAll d combinator.separator members
    Writing.push ")"
  | not inner => do
    Writing.push "NOT ("
    write d inner
    Writing.push ")"

/-- Writes conditions with a separator between them. -/
def writeAll (d : Dialect) (separator : String) : List Condition → Writing Unit
  | [] => pure ()
  | [c] => write d c
  | c :: c' :: rest => do
    write d c
    Writing.push separator
    writeAll d separator (c' :: rest)

end

/-- Writing conditions is writing a list of which each item is a condition. -/
theorem writeAll_eq_list (d : Dialect) (separator : String) (cs : List Condition) :
    writeAll d separator cs = Writing.list separator (write d) cs := by
  match cs with
  | [] => simp [writeAll, Writing.list]
  | [c] => simp [writeAll, Writing.list]
  | c :: c' :: rest => simp [writeAll, Writing.list, writeAll_eq_list d separator (c' :: rest)]

/-- The text of a condition by itself, and its arguments; a failure is reported. -/
def statement (d : Dialect) (c : Condition) : Traced (Except Fault Statement) := do
  let (outcome, w) ← ((c.write d).reporting (.conditionFailed d.name)).traced {}
  return outcome.map fun _ => w.statement

end Condition

end SelectQuery
