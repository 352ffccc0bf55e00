import SelectQuery.Text.Blank

/-!
# Operator — comparisons, connectives and directions

The words of the language of filters and orders. Each has its SQL text; operators and directions
have a short tag as well, by which they are named in texts typed by hand: a tag is found whatever
the case of its ASCII letters and whatever blanks stand around it.
-/

namespace SelectQuery

/-- How a field is compared with its operand. -/
inductive Operator where
  | eq
  | ne
  | gt
  | lt
  | gte
  | lte
  | member
  | like
  | between
  deriving DecidableEq, Repr

namespace Operator

/-- Every operator. -/
def all : List Operator := [eq, ne, gt, lt, gte, lte, member, like, between]

/-- The operator in SQL. -/
def sql : Operator → String
  | eq => "="
  | ne => "!="
  | gt => ">"
  | lt => "<"
  | gte => ">="
  | lte => "<="
  | member => "IN"
  | like => "LIKE"
  | between => "BETWEEN"

/-- The name by which texts mention the operator. -/
def tag : Operator → String
  | eq => "eq"
  | ne => "ne"
  | gt => "gt"
  | lt => "lt"
  | gte => "gte"
  | lte => "lte"
  | member => "in"
  | like => "like"
  | between => "between"

/-- The operator compares with one value; the others compare with a list. -/
def takesSingle : Operator → Bool
  | member | between => false
  | _ => true

/-- The operator that a text names. -/
def ofText? (s : String) : Option Operator :=
  let name := Text.folded s
  all.find? fun op => op.tag == name

end Operator

/-- How the conditions of a group are combined. -/
inductive Combinator where
  | and
  | or
  deriving DecidableEq, Repr

namespace Combinator

instance : Inhabited Combinator := ⟨and⟩

/-- Every combinator. -/
def all : List Combinator := [and, or]

/-- The combinator in SQL. -/
def sql : Combinator → String
  | and => "AND"
  | or => "OR"

/-- The text between two conditions of a group. -/
def separator : Combinator → String
  | and => " AND "
  | or => " OR "

end Combinator

/-- The direction of an ordering. -/
inductive Order where
  | asc
  | desc
  deriving DecidableEq, Repr

namespace Order

instance : Inhabited Order := ⟨asc⟩

/-- The direction in SQL. -/
def sql : Order → String
  | asc => "ASC"
  | desc => "DESC"

/-- The direction that a text names. -/
def ofText? (s : String) : Option Order :=
  let name := Text.folded s
  if name = "asc" then some asc else if name = "desc" then some desc else none

end Order

end SelectQuery
