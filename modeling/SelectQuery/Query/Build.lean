import SelectQuery.Condition.Text
import SelectQuery.Query.Basic

/-!
# Query/Build — the statement of a query

A statement has its parts in a fixed order: columns, table, filter, order, page. `Query.build`
writes the rows that are asked for and `Query.buildCount` the count of all rows that pass the
filter. Faults are found in the order of the parts, a missing table first. Building leaves the query
as it is.
-/

namespace SelectQuery.Query

/-- The columns by name, or all of them. -/
def writeColumns (q : Query) : Writing Unit :=
  if q.columns.isEmpty then Writing.push "*"
  else Writing.list ", " (Writing.name q.dialect) q.columns

/-- From the start of a statement to its table. -/
def writeHead (q : Query) (selection : Writing Unit) : Writing Unit := do
  Writing.push "SELECT "
  selection
  Writing.push " FROM "
  Writing.push (q.dialect.quoteTable q.table)

/-- The conditions, joined without parentheses. -/
def writeFilter (q : Query) : Writing Unit := do
  if q.conditions.isEmpty then return
  Writing.keyword "WHERE"
  Writing.space
  Writing.list Combinator.and.separator (Condition.write q.dialect) q.conditions

/-- A field and its direction. -/
def writeOrder (d : Dialect) (o : String × Order) : Writing Unit := do
  Writing.name d o.1
  Writing.push (" " ++ o.2.sql)

/-- The orders; without any, what the dialect puts before a page that is asked for. -/
def writeOrders (q : Query) : Writing Unit := do
  if q.orders.isEmpty then
    match q.dialect.pageOrder? with
    | some order =>
      if q.page.isEmpty then return
      Writing.keyword "ORDER BY"
      Writing.space
      Writing.push order
    | none => return
  else
    Writing.keyword "ORDER BY"
    Writing.space
    Writing.list ", " (writeOrder q.dialect) q.orders

/-- The limit, lowered to the ceiling where it is above. -/
def effectiveLimit (q : Query) : Traced (Option UInt64) :=
  match q.page.limit, q.ceiling with
  | some limit, some ceiling =>
    if ceiling < limit then do
      Traced.report (.clamping limit ceiling)
      return some ceiling
    else pure (some limit)
  | limit, _ => pure limit

/-- From the start of a statement to the end of its filter; a failure of the filter is reported. -/
def writeStart (q : Query) (selection : Writing Unit) : Writing Unit := do
  q.writeHead selection
  q.writeFilter.reporting (.filterFailed q.dialect.name q.table.name)

/-- A new writer behind the start of a statement, if the table has a name. -/
def start (q : Query) (selection : Writing Unit) : Traced (Except Fault Writer) := do
  if q.table.isEmpty then return .error .missingTable
  let (outcome, w) ← (q.writeStart selection).traced {}
  return outcome.map fun _ => w

/-- The statement as it stands, with a report. -/
def finish (q : Query) (w : Writer) : Traced (Except Fault Statement) := do
  Traced.report (.built q.dialect.name q.table.name w.args.length)
  return .ok w.statement

/-- The statement that selects the rows. -/
def build (q : Query) : Traced (Except Fault Statement) := do
  match ← q.start q.writeColumns with
  | .error fault => return .error fault
  | .ok w =>
    let (_, w) ← q.writeOrders.traced w
    let limit ← q.effectiveLimit
    match q.dialect.pageClause { limit, offset := q.page.offset } with
    | .error fault => return .error fault
    | .ok clause => q.finish (if clause.isEmpty then w else w.space.push clause)

/-- The statement that counts the rows. -/
def buildCount (q : Query) : Traced (Except Fault Statement) := do
  match ← q.start (Writing.push "COUNT(*)") with
  | .error fault => return .error fault
  | .ok w => q.finish w

end SelectQuery.Query
