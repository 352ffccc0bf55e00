import SelectQuery.Dialect.Basic

/-!
# Dialect/BuiltIn — four databases

MySQL and SQLite differ only in the limit that stands for none. PostgreSQL numbers its placeholders
and needs no such limit. SQL Server has brackets around names, asks for pages with `OFFSET` and
`FETCH`, which it allows only behind an order, and has literals of its own for truth values and
bytes.
-/

namespace SelectQuery.Dialect

/-- MySQL. An offset needs a limit, and the greatest number there is stands for none. -/
def mysql : Dialect where
  name := "mysql"
  quoteName := Text.quote '\x60' '\x60'
  placeholder _ := "?"
  pageClause p := .ok (limitOffset (some "18446744073709551615") p)

/-- PostgreSQL. -/
def postgresql : Dialect where
  name := "postgresql"
  quoteName := Text.quote '"' '"'
  placeholder n := "$" ++ toString n
  pageClause p := .ok (limitOffset none p)

/-- SQLite. An offset needs a limit, and a negative one stands for none. -/
def sqlite : Dialect where
  name := "sqlite"
  quoteName := Text.quote '\x60' '\x60'
  placeholder _ := "?"
  pageClause p := .ok (limitOffset (some "-1") p)

/-- A page in the words of SQL Server: rows to pass over, then rows to fetch. -/
def offsetFetch (p : Page) : String :=
  match p.limit, p.offset with
  | none, none => ""
  | some n, offset =>
    "OFFSET " ++ toString (offset.getD 0).toNat ++ " ROWS FETCH NEXT " ++ toString n.toNat ++
      " ROWS ONLY"
  | none, some m => "OFFSET " ++ toString m.toNat ++ " ROWS"

/-- A literal in the words of SQL Server: truth values are bits, and bytes are a hexadecimal
number. -/
def serverLiteral : Value → String
  | .scalar (.bool b) => if b then "1" else "0"
  | .scalar (.bytes bs) => "0x" ++ String.ofList (Text.upperHex bs)
  | v => v.literal

/-- SQL Server. A page without an order is ordered by nothing in particular. -/
def sqlserver : Dialect where
  name := "sqlserver"
  quoteName := Text.quote '[' ']'
  placeholder n := "@p" ++ toString n
  pageClause p := .ok (offsetFetch p)
  pageOrder? := some "(SELECT NULL)"
  quoteValue := serverLiteral

/-- The dialects that a registry starts with. -/
def builtIn : List Dialect := [mysql, postgresql, sqlite, sqlserver]

end SelectQuery.Dialect
