import SelectQuery.Calendar
import SelectQuery.Json.Basic

/-!
# Value/Basic — the arguments of a query

A `Value` is a scalar of one of twenty kinds, or the NULL of a kind. NULL is typed, so a column of
dates and a column of numbers have different NULLs, and it is a value like any other: it is bound to
a placeholder and equal to itself.
-/

namespace SelectQuery

/-- The kinds of values. -/
inductive Kind where
  | bool
  | int8
  | int16
  | int32
  | int64
  | uint8
  | uint16
  | uint32
  | uint64
  | single
  | double
  | char
  | text
  | bytes
  | date
  | time
  | dateTime
  | instant
  | uuid
  | json
  deriving DecidableEq, Repr

/-- A universally unique identifier, sixteen bytes. -/
@[ext]
structure Uuid where
  bytes : Vector UInt8 16
  deriving DecidableEq, Repr

/-- A value that is not NULL. -/
inductive Scalar where
  | bool (b : Bool)
  | int8 (n : Int8)
  | int16 (n : Int16)
  | int32 (n : Int32)
  | int64 (n : Int64)
  | uint8 (n : UInt8)
  | uint16 (n : UInt16)
  | uint32 (n : UInt32)
  | uint64 (n : UInt64)
  | single (x : Number.Single)
  | double (x : Number.Double)
  | char (c : Char)
  | text (s : String)
  | bytes (bytes : List UInt8)
  | date (d : Date)
  | time (t : Time)
  /-- A date and time without a place. -/
  | dateTime (t : DateTime)
  /-- A date and time in coordinated universal time. -/
  | instant (t : DateTime)
  | uuid (u : Uuid)
  | json (doc : Json.Document)

/-- The kind of a scalar. -/
def Scalar.kind : Scalar → Kind
  | bool _ => .bool
  | int8 _ => .int8
  | int16 _ => .int16
  | int32 _ => .int32
  | int64 _ => .int64
  | uint8 _ => .uint8
  | uint16 _ => .uint16
  | uint32 _ => .uint32
  | uint64 _ => .uint64
  | single _ => .single
  | double _ => .double
  | char _ => .char
  | text _ => .text
  | bytes _ => .bytes
  | date _ => .date
  | time _ => .time
  | dateTime _ => .dateTime
  | instant _ => .instant
  | uuid _ => .uuid
  | json _ => .json

/-- Scalars of one kind are equal as the kind says; numbers that are no numbers equal nothing. -/
instance : BEq Scalar where
  beq
    | .bool a, .bool b => a == b
    | .int8 a, .int8 b => a == b
    | .int16 a, .int16 b => a == b
    | .int32 a, .int32 b => a == b
    | .int64 a, .int64 b => a == b
    | .uint8 a, .uint8 b => a == b
    | .uint16 a, .uint16 b => a == b
    | .uint32 a, .uint32 b => a == b
    | .uint64 a, .uint64 b => a == b
    | .single a, .single b => a == b
    | .double a, .double b => a == b
    | .char a, .char b => a == b
    | .text a, .text b => a == b
    | .bytes a, .bytes b => a == b
    | .date a, .date b => a == b
    | .time a, .time b => a == b
    | .dateTime a, .dateTime b => a == b
    | .instant a, .instant b => a == b
    | .uuid a, .uuid b => a == b
    | .json a, .json b => a == b
    | _, _ => false

/-- An argument of a query. -/
inductive Value where
  | null (kind : Kind)
  | scalar (x : Scalar)

namespace Value

/-- The default value is the NULL of texts. -/
instance : Inhabited Value := ⟨null .text⟩

/-- The kind of a value; NULL has one too. -/
def kind : Value → Kind
  | null k => k
  | scalar x => x.kind

/-- The value is the NULL of its kind. -/
def isNull : Value → Bool
  | null _ => true
  | scalar _ => false

/-- NULL equals NULL of the same kind. -/
instance : BEq Value where
  beq
    | null a, null b => a == b
    | scalar a, scalar b => a == b
    | _, _ => false

/-- A text, or NULL where there is none. -/
def ofText? (s : Option String) : Value := s.elim (null .text) fun s => scalar (.text s)

/-- A text. -/
def ofText (s : String) : Value := scalar (.text s)

/-- Bytes. -/
def ofBytes (bytes : List UInt8) : Value := scalar (.bytes bytes)

end Value

end SelectQuery
