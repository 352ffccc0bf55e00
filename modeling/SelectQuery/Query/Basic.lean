import SelectQuery.Condition
import SelectQuery.Dialect.Basic

/-!
# Query/Basic — a query under construction

A query collects columns, conditions, orders and a page for one table in one dialect. Columns,
conditions and orders add up in the order in which they come; of limits, offsets and ceilings the
last counts. A query is a value, so a change to one never shows in another. `Step` names the changes
and `Query.after` makes them.
-/

namespace SelectQuery

/-- What is to be selected. -/
structure Query where
  table : Table
  dialect : Dialect
  columns : List String := []
  /-- The conditions that rows have to meet, all of them. -/
  conditions : List Condition := []
  /-- The fields that rows are ordered by, the first one first. -/
  orders : List (String × Order) := []
  page : Page := {}
  /-- The greatest limit that a statement may have. -/
  ceiling : Option UInt64 := none

/-- A change to a query. -/
inductive Step where
  /-- Adds columns. -/
  | select (columns : List String)
  /-- Adds a column. -/
  | column (name : String)
  /-- Adds a condition. -/
  | filter (c : Condition)
  /-- Adds one condition: all of these. -/
  | filterAll (cs : List Condition)
  /-- Adds one condition: any of these. -/
  | filterAny (cs : List Condition)
  /-- Orders by a field, behind the orders so far. -/
  | orderBy (field : String) (order : Order)
  /-- Orders by a field in a direction given as a text. -/
  | orderByText (field direction : String)
  /-- Asks for no more rows than this. -/
  | limit (n : UInt64)
  /-- Passes over so many rows. -/
  | offset (n : UInt64)
  /-- Sets or lifts the ceiling. -/
  | ceiling (n? : Option UInt64)

namespace Query

/-- The query with one condition more. -/
def filter (q : Query) (c : Condition) : Query := { q with conditions := q.conditions ++ [c] }

/-- The query with one order more. -/
def orderBy (q : Query) (field : String) (order : Order) : Query :=
  { q with orders := q.orders ++ [(field, order)] }

/-- The query after a change. Only a direction given as a text has something to report. -/
def after (q : Query) : Step → Traced Query
  | .select columns => pure { q with columns := q.columns ++ columns }
  | .column name => pure { q with columns := q.columns ++ [name] }
  | .filter c => pure (q.filter c)
  | .filterAll cs => pure (q.filter (.all cs))
  | .filterAny cs => pure (q.filter (.any cs))
  | .orderBy field order => pure (q.orderBy field order)
  | .orderByText field direction => do return q.orderBy field (← Order.parseLenient direction)
  | .limit n => pure { q with page := { q.page with limit := some n } }
  | .offset n => pure { q with page := { q.page with offset := some n } }
  | .ceiling n? => pure { q with ceiling := n? }

end Query

end SelectQuery
