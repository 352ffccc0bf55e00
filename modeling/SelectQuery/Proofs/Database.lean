import SelectQuery.Dialect.BuiltIn
import SelectQuery.Proofs.Lexicon

/-!
# Proofs/Database — four databases and how their statements are read

The library has four dialects built in, one for each **database**.  `Database.lexicon` is what a
reader of its statements has to know, and `Database.describes` says that the dialect writes what the
lexicon reads.  The clause for a page is given in pieces as well: it is the only part of a statement
whose words differ from one database to another.
-/

namespace SelectQuery

/-- The databases whose dialects are built in. -/
inductive Database where
  | mysql
  | postgresql
  | sqlite
  | sqlserver
  deriving DecidableEq, Repr

namespace Database

/-- Every database. -/
def all : List Database := [mysql, postgresql, sqlite, sqlserver]

/-- The dialect of a database. -/
def dialect : Database → Dialect
  | mysql => .mysql
  | postgresql => .postgresql
  | sqlite => .sqlite
  | sqlserver => .sqlserver

/-- The databases are those of the built-in dialects. -/
theorem map_dialect_all : all.map dialect = Dialect.builtIn := rfl

/-- How statements of a database are read. -/
def lexicon : Database → Lexicon
  | mysql | sqlite =>
    { opening := '\x60', closing := '\x60', sigil := '?', sigilRest := [], numbered := false }
  | postgresql =>
    { opening := '"', closing := '"', sigil := '$', sigilRest := [], numbered := true }
  | sqlserver =>
    { opening := '[', closing := ']', sigil := '@', sigilRest := ['p'], numbered := true }

/-- **Every database writes as its lexicon says.** -/
theorem describes (b : Database) : b.lexicon.Describes b.dialect := by
  refine ⟨by cases b <;> rfl, fun k => ?_⟩
  cases b <;> simp [lexicon, dialect, Dialect.mysql, Dialect.postgresql, Dialect.sqlite,
    Dialect.sqlserver]

/-- Tables are quoted part by part. -/
theorem quoteTable_eq (b : Database) :
    b.dialect.quoteTable = Table.quoted b.dialect.quoteName := by
  cases b <;> rfl

/-! ## The page -/

/-- A limit in pieces. -/
def limitPieces (limit : List Piece) : List Piece := .word "LIMIT" :: .blank :: limit

/-- An offset in pieces. -/
def offsetPieces (m : UInt64) : List Piece :=
  [.word "OFFSET", .blank, .word (toString m.toNat)]

/-- The limit that stands for none before an offset. -/
def unlimited : Database → Option (List Piece)
  | mysql => some [.word "18446744073709551615"]
  | sqlite => some [.word "-", .word "1"]
  | postgresql | sqlserver => none

/-- The clause for a page, in the words of limits and offsets. -/
def limitOffsetPieces (unlimited : Option (List Piece)) (p : Page) : List Piece :=
  match p.limit, p.offset with
  | none, none => []
  | some n, none => limitPieces [.word (toString n.toNat)]
  | some n, some m => limitPieces [.word (toString n.toNat)] ++ .blank :: offsetPieces m
  | none, some m =>
    match unlimited with
    | some ps => limitPieces ps ++ .blank :: offsetPieces m
    | none => offsetPieces m

/-- The clause for a page, in the words of SQL Server. -/
def offsetFetchPieces (p : Page) : List Piece :=
  match p.limit, p.offset with
  | none, none => []
  | some n, offset =>
    offsetPieces (offset.getD 0) ++ [.blank, .word "ROWS", .blank, .word "FETCH", .blank,
      .word "NEXT", .blank, .word (toString n.toNat), .blank, .word "ROWS", .blank, .word "ONLY"]
  | none, some m => offsetPieces m ++ [.blank, .word "ROWS"]

/-- The clause for a page. -/
def pagePieces (b : Database) (p : Page) : List Piece :=
  match b with
  | sqlserver => offsetFetchPieces p
  | b => limitOffsetPieces b.unlimited p

/-- What rows are ordered by if a page is asked for and no order is given. -/
def fallbackPieces : Database → List Piece
  | sqlserver => [.word "(", .word "SELECT", .blank, .word "NULL", .word ")"]
  | _ => []

theorem isFixed_fallbackPieces (b : Database) : b.fallbackPieces.all Piece.isFixed = true := by
  cases b <;> rfl

theorem pageOrder?_eq (b : Database) : b.dialect.pageOrder? =
    if b.fallbackPieces.isEmpty then none else some (fixedText b.fallbackPieces) := by
  cases b <;> rfl

/-- A clause for a page has no names and no marks. -/
theorem isFixed_pagePieces (b : Database) (p : Page) :
    (b.pagePieces p).all Piece.isFixed = true := by
  obtain ⟨_ | n, _ | m⟩ := p <;> cases b <;> rfl

/-- **The clause for a page is the text of its pieces.** -/
theorem pageClause_eq (b : Database) (p : Page) :
    b.dialect.pageClause p = .ok (fixedText (b.pagePieces p)) := by
  obtain ⟨_ | n, _ | m⟩ := p <;> cases b <;>
    refine congrArg Except.ok (String.toList_inj.mp ?_) <;>
    simp [limitOffset, Dialect.offsetFetch, pagePieces, limitOffsetPieces, offsetFetchPieces,
      limitPieces, offsetPieces, unlimited, fixedText]

end Database

end SelectQuery
