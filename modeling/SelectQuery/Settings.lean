import SelectQuery.Fault
import SelectQuery.Toml.Document
import SelectQuery.Toml.Printer

/-!
# Settings — which dialect, and how many rows at most

Settings are two lines of TOML. Either may be missing, other keys are passed over, and a text that
is not TOML or has a value of the wrong kind is refused as a whole. How a refused text is explained
is left to whoever reads it. What `toToml` writes, `ofToml` reads back.
-/

namespace SelectQuery

/-- The settings of a program that makes queries. -/
structure Settings where
  /-- The dialect by name. -/
  dialect : String := "mysql"
  /-- The ceiling of limits. -/
  maxLimit : Option UInt64 := none
  deriving DecidableEq, Repr

namespace Settings

/-- The dialect of a document. -/
def readDialect? (es : Toml.Entries) : Option String :=
  match es.lookup "dialect" with
  | none => some ({} : Settings).dialect
  | some (.text s) => some s
  | some _ => none

/-- The ceiling of a document: nothing, or a number of sixty-four bits. -/
def readMaxLimit? (es : Toml.Entries) : Option (Option UInt64) :=
  match es.lookup "max_limit" with
  | none => some none
  | some (.integer n) =>
    if 0 ≤ n ∧ n < UInt64.size then some (some (UInt64.ofNat n.toNat)) else none
  | some _ => none

/-- The settings of a document. -/
def ofEntries? (es : Toml.Entries) : Option Settings := do
  let dialect ← readDialect? es
  let maxLimit ← readMaxLimit? es
  return { dialect, maxLimit }

/-- The settings that a text holds; `explain` says what is wrong with a text that holds none. -/
def ofToml (explain : String → String) (text : String) : Except Fault Settings :=
  match (Toml.parse text).bind ofEntries? with
  | some s => .ok s
  | none => .error (.settings (explain text))

/-- The settings that the content of a file holds; a file that cannot be read has an explanation in
place of it. -/
def ofFile (explain : String → String) (path : String) (content : Except String ByteArray) :
    Except Fault Settings :=
  match content with
  | .ok bytes =>
    match String.fromUTF8? bytes with
    | some text => ofToml explain text
    | none => .error (.settings (path ++ ": stream did not contain valid UTF-8"))
  | .error explanation => .error (.settings (path ++ ": " ++ explanation))

/-- The text of settings. -/
def toToml (s : Settings) : String :=
  Toml.textLine "dialect" s.dialect ++
    s.maxLimit.elim "" fun n => Toml.line "max_limit" (toString n.toNat)

end Settings

end SelectQuery
