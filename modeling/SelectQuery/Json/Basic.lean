import SelectQuery.Number.Notation

/-!
# Json/Basic — JSON documents as values

A document is a tree. Integers that fit sixty-four bits are kept as integers and every other number
as a finite binary floating-point number, so `1` and `1.0` are different documents. In a tree the
fields of an object may come in any order; in a `Document` the keys of every object ascend, each
coming once.
-/

namespace SelectQuery

/-- A number of a document. -/
inductive JsonNumber where
  | natural (n : UInt64)
  | negative (n : Int64) (h : n < 0)
  | real (x : Number.Finite .double)
  deriving DecidableEq, Repr

namespace JsonNumber

/-- Numbers of one form are equal as numbers; numbers of two forms are not. -/
instance : BEq JsonNumber where
  beq
    | natural m, natural n => m == n
    | negative m _, negative n _ => m == n
    | real x, real y => x == y
    | _, _ => false

/-- The text of a number. -/
def text : JsonNumber → String
  | natural n => toString n.toNat
  | negative n _ => toString n.toInt
  | real x => x.jsonText

end JsonNumber

/-- A tree, with the fields of its objects in whatever order. -/
inductive Json where
  | null
  | bool (b : Bool)
  | number (n : JsonNumber)
  | text (s : String)
  | array (items : List Json)
  | object (fields : List (String × Json))
  deriving Inhabited

namespace Json

/-- Puts a field at the place of its key; a field already there gives way. -/
def putField (key : String) (v : Json) : List (String × Json) → List (String × Json)
  | [] => [(key, v)]
  | (k, w) :: rest =>
    if key < k then (key, v) :: (k, w) :: rest
    else if key = k then (key, v) :: rest
    else (k, w) :: putField key v rest

/-! ## Equality

Trees are equal if they have the same shape and equal leaves. The two zeros are equal leaves, so
equal trees need not be the same. -/

mutual

/-- Equality of trees. -/
def equal : Json → Json → Bool
  | null, null => true
  | bool a, bool b => a == b
  | number a, number b => a == b
  | text a, text b => a == b
  | array a, array b => equalItems a b
  | object a, object b => equalFields a b
  | _, _ => false

/-- Equality of two arrays, item by item. -/
def equalItems : List Json → List Json → Bool
  | [], [] => true
  | a :: as, b :: bs => equal a b && equalItems as bs
  | _, _ => false

/-- Equality of two objects, field by field. -/
def equalFields : List (String × Json) → List (String × Json) → Bool
  | [], [] => true
  | (k, a) :: as, (l, b) :: bs => k == l && equal a b && equalFields as bs
  | _, _ => false

end

instance : BEq Json := ⟨equal⟩

/-! ## The compact text

No blanks between the parts, and only the escapes that JSON asks for. -/

/-- A character of a string: quotes, backslashes and control characters are escaped. -/
def escapeChar (c : Char) : List Char :=
  match c with
  | '"' => ['\\', '"']
  | '\\' => ['\\', '\\']
  | '\x08' => ['\\', 'b']
  | '\x0c' => ['\\', 'f']
  | '\n' => ['\\', 'n']
  | '\r' => ['\\', 'r']
  | '\t' => ['\\', 't']
  | c =>
    if c.toNat < 0x20 then
      ['\\', 'u', '0', '0', Nat.digitChar (c.toNat / 16), Nat.digitChar (c.toNat % 16)]
    else [c]

/-- A string between its quotes. -/
def quoted (s : String) : String :=
  String.ofList ('"' :: (s.toList.flatMap escapeChar ++ ['"']))

mutual

/-- The compact text of a tree. -/
def compact : Json → String
  | null => "null"
  | bool b => if b then "true" else "false"
  | number n => n.text
  | text s => quoted s
  | array items => "[" ++ ",".intercalate (compactItems items) ++ "]"
  | object fields => "\x7b" ++ ",".intercalate (compactFields fields) ++ "\x7d"

/-- The compact texts of the items of an array. -/
def compactItems : List Json → List String
  | [] => []
  | v :: vs => compact v :: compactItems vs

/-- The compact texts of the fields of an object. -/
def compactFields : List (String × Json) → List String
  | [] => []
  | (k, v) :: rest => (quoted k ++ ":" ++ compact v) :: compactFields rest

end

/-! ## Documents -/

/-- **The keys of every object ascend**, so none comes twice. -/
inductive Ordered : Json → Prop
  | null : Ordered null
  | bool (b : Bool) : Ordered (bool b)
  | number (n : JsonNumber) : Ordered (number n)
  | text (s : String) : Ordered (text s)
  | array {items : List Json} (h : ∀ v ∈ items, Ordered v) : Ordered (array items)
  | object {fields : List (String × Json)} (hkeys : fields.Pairwise fun f g => f.1 < g.1)
      (h : ∀ f ∈ fields, Ordered f.2) : Ordered (object fields)

/-- A document: a tree in order. -/
structure Document where
  tree : Json
  ordered : tree.Ordered

/-- Documents are equal as trees. -/
instance : BEq Document := ⟨fun a b => a.tree == b.tree⟩

/-- The compact text of a document. -/
def Document.compact (doc : Document) : String := doc.tree.compact

end Json

end SelectQuery
