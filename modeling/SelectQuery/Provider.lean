import SelectQuery.Capabilities
import SelectQuery.Dialect.BuiltIn
import SelectQuery.Query.Basic

/-!
# Provider — where queries come from

A provider is bound to a dialect and hands out queries with its ceiling. A query keeps the ceiling
that it was handed out with, whatever becomes of the provider.
-/

namespace SelectQuery

/-- A source of queries in one dialect. -/
structure Provider where
  dialect : Dialect
  capabilities : Capabilities
  /-- The ceiling of the queries that are handed out. -/
  maxLimit : Option UInt64 := none

namespace Provider

/-- The provider of a dialect, without a ceiling. -/
def ofDialect (d : Dialect) : Provider where
  dialect := d
  capabilities := { description := "SQL query constructor (" ++ d.name ++ ")" }

instance : Inhabited Provider := ⟨ofDialect Dialect.mysql⟩

/-- The provider with another ceiling. -/
def withMaxLimit (p : Provider) (maxLimit : Option UInt64) : Provider := { p with maxLimit }

/-- The provider with other capabilities. -/
def withCapabilities (p : Provider) (capabilities : Capabilities) : Provider :=
  { p with capabilities }

/-- A new query for a table. -/
def query (p : Provider) (table : Table) : Query :=
  { table, dialect := p.dialect, ceiling := p.maxLimit }

end Provider

end SelectQuery
