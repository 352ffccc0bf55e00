import SelectQuery.Event
import SelectQuery.Table
import SelectQuery.Value.Literal

/-!
# Dialect/Basic — what databases write differently

A dialect says how names are quoted, what a placeholder looks like and how a page of rows is asked
for. Everything else about a statement is the same in all of them. A dialect is a record of these
choices: new ones are made by filling it in, and the fields with a default are for databases with
something special to say.
-/

namespace SelectQuery

/-- The parts of a table's name, each quoted by itself, with a point between them. -/
def Table.quoted (quoteName : String → String) : Table → String
  | plain n => quoteName n
  | within s n => quoteName s ++ "." ++ quoteName n

/-- The choices of a database. -/
structure Dialect where
  name : String
  /-- A name of a column or table as a statement has it. -/
  quoteName : String → String
  /-- The placeholder of the argument with this number; the first has number one. -/
  placeholder : Nat → String
  /-- The clause that asks for a page; empty if there is nothing to say. -/
  pageClause : Page → Except Fault String
  /-- What rows are ordered by if a page is asked for and no order is given. -/
  pageOrder? : Option String := none
  /-- A table as a statement has it. -/
  quoteTable : Table → String := Table.quoted quoteName
  /-- A value as a literal. -/
  quoteValue : Value → String := Value.literal

/-- `LIMIT` and `OFFSET`, each where it is asked for. Where a limit has to stand before an offset,
`unlimited` is the limit that stands for none. -/
def limitOffset (unlimited : Option String) (p : Page) : String :=
  let limit := match p.limit, p.offset with
    | some n, _ => some (toString n.toNat)
    | none, some _ => unlimited
    | none, none => none
  let parts := (limit.map ("LIMIT " ++ ·)).toList ++
    (p.offset.map fun m => "OFFSET " ++ toString m.toNat).toList
  " ".intercalate parts

end SelectQuery
