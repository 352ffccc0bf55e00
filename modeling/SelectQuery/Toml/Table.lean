/-!
# Toml/Table — documents and the order in which they may be written

A document is a table of keys with values; tables nest. A table can be written in several ways and
be added to from several places, and the rules on that are what this module is about. Every table
remembers how it came to be (`Origin`), and `addEntry`, `addHeader` and `addItem` refuse whatever
would define something twice.
-/

namespace SelectQuery.Toml

/-- How a table came to be. -/
inductive Origin where
  /-- It has a header of its own, or is the document. -/
  | header
  /-- It is on the way to the table of another header. -/
  | implied
  /-- It is on the way to a key with points in it. -/
  | dotted
  /-- It stands in braces, all of it. -/
  | inline
  deriving DecidableEq, Repr

/-- A value. Of numbers with a fraction, and of dates and times, only the form is kept: no setting
has them. -/
inductive Item where
  | text (s : String)
  | integer (n : Int)
  | bool (b : Bool)
  | float
  | dateTime
  | array (items : List Item)
  | table (origin : Origin) (entries : List (String × Item))
  /-- Tables under one header: those before the last, and the last, to which is added. -/
  | tables (earlier : List (List (String × Item))) (last : List (String × Item))

/-- The keys of a table with their values, in the order of the text. -/
abbrev Entries := List (String × Item)

/-- Replaces the value of a key, or adds the key at the end. -/
def put (key : String) (v : Item) : Entries → Entries
  | [] => [(key, v)]
  | (k, w) :: rest => if k = key then (k, v) :: rest else (k, w) :: put key v rest

/-- Changes the table at the end of a path, making the tables on the way that are not there. Tables
in braces are closed. A path of a key with points may not enter a table that has a header. -/
def descend (dotted : Bool) (change : Origin → Entries → Option Entries) :
    List String → Origin → Entries → Option Entries
  | [], origin, es => change origin es
  | k :: path, _, es =>
    match es.lookup k with
    | none => do
      let origin : Origin := if dotted then .dotted else .implied
      let inner ← descend dotted change path origin []
      return put k (.table origin inner) es
    | some (.table origin inner) =>
      if origin = .inline ∨ (dotted ∧ origin = .header) then none
      else do
        let inner ← descend dotted change path origin inner
        return put k (.table origin inner) es
    | some (.tables earlier last) => do
      let last ← descend dotted change path .header last
      return put k (.tables earlier last) es
    | some _ => none

/-- Adds a key with points in front of it (`path`) and a value to a table. The key has to be new,
and the table on the way to it has to be one of keys with points as well. -/
def addEntry (path : List String) (key : String) (v : Item) (origin : Origin) (es : Entries) :
    Option Entries :=
  let add (o : Origin) (es : Entries) : Option Entries :=
    if (o = .dotted) = path.isEmpty then none
    else if (es.lookup key).isSome then none
    else some (es ++ [(key, v)])
  descend true add path origin es

/-- Opens the table of a header. It has to be new, or so far only implied. -/
def addHeader (path : List String) (key : String) (es : Entries) : Option Entries :=
  let add (_ : Origin) (es : Entries) : Option Entries :=
    match es.lookup key with
    | none => some (es ++ [(key, .table .header [])])
    | some (.table .implied inner) => some (put key (.table .header inner) es)
    | some _ => none
  descend false add path .header es

/-- Opens the next of the tables under one header. -/
def addItem (path : List String) (key : String) (es : Entries) : Option Entries :=
  let add (_ : Origin) (es : Entries) : Option Entries :=
    match es.lookup key with
    | none => some (es ++ [(key, .tables [] [])])
    | some (.tables earlier last) => some (put key (.tables (earlier ++ [last]) []) es)
    | some _ => none
  descend false add path .header es

/-- Adds a key and a value to the table that was opened last. -/
def addEntryAt (current : List String) (path : List String) (key : String) (v : Item)
    (es : Entries) : Option Entries :=
  descend false (addEntry path key v) current .header es

end SelectQuery.Toml
