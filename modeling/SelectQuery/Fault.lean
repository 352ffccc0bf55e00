import SelectQuery.Operator

/-!
# Fault — why something cannot be done

Each fault is a fact about what the caller supplied, so trying again gives the same fault.
`Fault.message` is the one place that words them.
-/

namespace SelectQuery

/-- The operand that an operator asks for. -/
inductive OperandShape where
  | single
  | list
  deriving DecidableEq, Repr

/-- The shape in words. -/
def OperandShape.text : OperandShape → String
  | single => "a single value"
  | list => "a list of values"

/-- Why something cannot be done. -/
inductive Fault where
  /-- A field is asked to be one of no values. -/
  | emptyMembership (field : String)
  /-- A range has not two ends. -/
  | rangeArity (field : String) (found : Nat)
  /-- The operand does not fit the operator. -/
  | operandMismatch (field : String) (op : Operator) (expected : OperandShape)
  /-- A group has no members. -/
  | emptyGroup (combinator : Combinator)
  /-- A text names no operator. -/
  | unknownOperator (text : String)
  /-- A text names no direction. -/
  | unknownOrder (text : String)
  /-- A part of the name of the table is missing. -/
  | missingTable
  /-- The dialect has no words for what is asked. -/
  | unsupported (dialect feature : String)
  /-- A text names no dialect. -/
  | unknownDialect (text : String)
  /-- Settings cannot be read, and why. -/
  | settings (explanation : String)
  deriving DecidableEq, Repr

/-- The fault in words. -/
def Fault.message : Fault → String
  | emptyMembership field => "membership condition on `" ++ field ++ "` has no values"
  | rangeArity field found =>
    "range condition on `" ++ field ++ "` expects exactly 2 values, got " ++ toString found
  | operandMismatch field op expected =>
    "operator " ++ op.sql ++ " on `" ++ field ++ "` expects " ++ expected.text
  | emptyGroup combinator => combinator.sql ++ " composite requires at least one condition"
  | unknownOperator text => "unknown operator: " ++ text
  | unknownOrder text => "unknown order direction: " ++ text
  | missingTable => "query has no table reference"
  | unsupported dialect feature => "feature not supported by " ++ dialect ++ ": " ++ feature
  | unknownDialect text => "unknown dialect: " ++ text
  | settings explanation => "configuration error: " ++ explanation

/-- The operator that a text names, or the fault that it names none. -/
def Operator.parse (s : String) : Except Fault Operator :=
  match Operator.ofText? s with
  | some op => .ok op
  | none => .error (.unknownOperator s)

/-- The direction that a text names, or the fault that it names none. -/
def Order.parse (s : String) : Except Fault Order :=
  match Order.ofText? s with
  | some o => .ok o
  | none => .error (.unknownOrder s)

end SelectQuery
