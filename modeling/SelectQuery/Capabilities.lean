import SelectQuery.Json.Written
import SelectQuery.Operator
import SelectQuery.Toml.Document
import SelectQuery.Toml.Printer

/-!
# Capabilities — what a source of queries can do

A source says of each feature whether it has it, names its native language if it has one, and
describes itself. The slots of that record have a fixed order, in which they are written to JSON and
TOML; when they are read they may come in any order and be missing, and a missing one keeps its
default.
-/

namespace SelectQuery

/-- What a source of queries may be able to do. -/
inductive Feature where
  | operator (op : Operator)
  | combinator (c : Combinator)
  | negation
  | select
  | orderBy
  | limit
  | offset
  | join
  | subquery
  | queryPlan
  | index
  | nativeQuery
  deriving DecidableEq, Repr

namespace Feature

/-- Every feature in the order of the record. -/
def all : List Feature :=
  [.eq, .ne, .gt, .lt, .gte, .lte, .member, .between, .like].map operator ++
    [.and, .or].map combinator ++
    [negation, select, orderBy, limit, offset, join, subquery, queryPlan, index, nativeQuery]

/-- The feature in a word. -/
def word : Feature → String
  | operator op => op.tag
  | combinator .and => "and"
  | combinator .or => "or"
  | negation => "not"
  | select => "select"
  | orderBy => "order_by"
  | limit => "limit"
  | offset => "offset"
  | join => "join"
  | subquery => "subquery"
  | queryPlan => "query_plan"
  | index => "index"
  | nativeQuery => "native_query"

end Feature

/-- What a source of queries can do. By default all but queries in a language of its own. -/
structure Capabilities where
  supports : Feature → Bool := fun f => f != .nativeQuery
  nativeLanguage : Option String := none
  description : String := "Default SQL query constructor"

namespace Capabilities

/-- The operators that are supported. -/
def operators (c : Capabilities) : List Operator :=
  Operator.all.filter fun op => c.supports (.operator op)

/-- The combinators that are supported. -/
def combinators (c : Capabilities) : List Combinator :=
  Combinator.all.filter fun x => c.supports (.combinator x)

/-- The capabilities with another description. -/
def withDescription (c : Capabilities) (text : String) : Capabilities :=
  { c with description := text }

/-! ## Slots -/

/-- A place in the record. -/
inductive Slot where
  | supports (f : Feature)
  | nativeLanguage
  | description
  deriving DecidableEq, Repr

/-- The slots in their order. -/
def Slot.all : List Slot := Feature.all.map .supports ++ [.nativeLanguage, .description]

/-- The key under which a slot is written. -/
def Slot.key : Slot → String
  | supports f => "supports_" ++ f.word
  | nativeLanguage => "native_query_lang"
  | description => "description"

/-- The slot of a key. -/
def Slot.ofKey? (key : String) : Option Slot := all.find? fun s => s.key == key

/-- What a slot holds. -/
def get (c : Capabilities) : Slot → Json
  | .supports f => .bool (c.supports f)
  | .nativeLanguage => c.nativeLanguage.elim .null .text
  | .description => .text c.description

/-- The record with a slot filled, if the content is of its kind. -/
def set? (c : Capabilities) : Slot → Json → Option Capabilities
  | .supports f, .bool b => some { c with supports := fun g => if g = f then b else c.supports g }
  | .nativeLanguage, .null => some { c with nativeLanguage := none }
  | .nativeLanguage, .text s => some { c with nativeLanguage := some s }
  | .description, .text s => some { c with description := s }
  | _, _ => none

/-! ## JSON -/

/-- The record as a JSON object. -/
def toJson (c : Capabilities) : String :=
  let fields := Slot.all.map fun s => (s.key, c.get s)
  "\x7b" ++ ",".intercalate (Json.compactFields fields) ++ "\x7d"

/-- Fills the slots of fields in turn. No slot is filled twice; keys of no slot are passed over. -/
def setFields? (filled : List Slot) (c : Capabilities) :
    List (Option String × Json.Written) → Option Capabilities
  | [] => some c
  | (key, w) :: rest => do
    match Slot.ofKey? (← key) with
    | none => setFields? filled c rest
    | some slot =>
      if slot ∈ filled then none
      else setFields? (slot :: filled) (← c.set? slot (← w.toJson? Json.depthLimit)) rest

/-- Fills slots with items in turn; no more items than slots. -/
def setItems? (c : Capabilities) : List Slot → List Json.Written → Option Capabilities
  | _, [] => some c
  | [], _ :: _ => none
  | slot :: slots, w :: ws => do
    setItems? (← c.set? slot (← w.toJson? Json.depthLimit)) slots ws

/-- The record that a JSON text holds: an object, or an array of the slots in their order, of which
any number may be missing at the end. -/
def ofJson? (text : String) : Option Capabilities := do
  match ← Json.Written.parse text with
  | .object fields => setFields? [] {} fields
  | .array items => setItems? {} Slot.all items
  | _ => none

/-! ## TOML -/

/-- The lines of the record; a slot with nothing in it has none. -/
def toToml (c : Capabilities) : String :=
  String.join (Slot.all.map fun s =>
    match c.get s with
    | .text t => Toml.textLine s.key t
    | .bool b => Toml.line s.key (if b then "true" else "false")
    | _ => "")

/-- The content of a value, if slots have such. -/
def contentOf? : Toml.Item → Option Json
  | .text s => some (.text s)
  | .bool b => some (.bool b)
  | _ => none

/-- The record that a TOML text holds. -/
def ofToml? (text : String) : Option Capabilities := do
  let es ← Toml.parse text
  Slot.all.foldlM (fun c slot =>
    match es.lookup slot.key with
    | none => some c
    | some item => (contentOf? item).bind (c.set? slot)) {}

end Capabilities

end SelectQuery
