/-!
# Table — what a query selects from

A table is named alone or within a schema. The two forms stay apart even if a plain name has a dot
in it, because each part of a name is quoted by itself.
-/

namespace SelectQuery

/-- The name of a table. -/
inductive Table where
  | plain (name : String)
  | within (schema name : String)
  deriving DecidableEq, Repr

namespace Table

/-- The name without the schema. -/
def name : Table → String
  | plain n => n
  | within _ n => n

/-- The schema, if one is given. -/
def schema? : Table → Option String
  | plain _ => none
  | within s _ => some s

/-- A part of the name is missing. -/
def isEmpty : Table → Bool
  | plain n => n.isEmpty
  | within s n => s.isEmpty || n.isEmpty

/-- The table of a name and perhaps a schema. -/
def ofParts (schema? : Option String) (name : String) : Table :=
  match schema? with
  | some s => within s name
  | none => plain name

end Table

/-- The part of the rows that is asked for: at most `limit` of them, after the first `offset`. -/
structure Page where
  limit : Option UInt64 := none
  offset : Option UInt64 := none
  deriving DecidableEq, Repr

/-- All rows are asked for. -/
def Page.isEmpty (p : Page) : Bool := p.limit.isNone && p.offset.isNone

end SelectQuery
