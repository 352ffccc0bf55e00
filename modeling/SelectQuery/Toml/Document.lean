import SelectQuery.Toml.Quoted
import SelectQuery.Toml.Scalar

/-!
# Toml/Document — the text of a document

A document is read line by line: blank lines, headers, and keys with values. Arrays and tables in
braces may run over several lines, with line breaks and comments between any two of their parts and
a comma behind the last item. A key with points in it is one part and stays on its line.
-/

namespace SelectQuery.Toml

open Text (Reader)

/-! ## Blanks, comments and line breaks -/

/-- A blank within a line. -/
def isSpace (c : Char) : Bool := c == ' ' || c == '\t'

/-- Drops the blanks within a line. -/
def spaces : Reader Unit := Reader.skip isSpace

/-- Drops a comment, if one is here; what stops it has to end the line. -/
def comment : Reader Unit := do
  if (← Reader.peek?) = some '#' then Reader.skip isPlain

/-- Takes a line break. -/
def lineBreak : Reader Unit
  | '\n' :: rest => some ((), rest)
  | '\r' :: '\n' :: rest => some ((), rest)
  | _ => none

/-- Drops blanks, comments and line breaks. -/
def between : Reader Unit :=
  let one (_ : Unit) : Reader (Unit ⊕ Unit) := do
    spaces
    comment
    match ← Reader.peek? with
    | some '\n' | some '\r' => do lineBreak; return .inl ()
    | _ => return .inr ()
  Reader.repeatFrom one ()

/-! ## Keys -/

/-- A character of a key without quotes. -/
def isKeyChar (c : Char) : Bool := c.isAlphanum || c == '_' || c == '-'

/-- A part of a key. -/
def readPart : Reader String := do
  match ← Reader.peek? with
  | some '"' | some '\'' => readLine
  | _ => do
    let cs ← Reader.span isKeyChar
    if cs.isEmpty then Reader.refuse else return String.ofList cs

/-- How deep a document may go at one place: how many parts a key may have, and how many arrays and
tables in braces may be within each other. -/
def depthLimit : Nat := 80

/-- The parts of a key with points between them: those in front, and the last. -/
def readKey : Reader (List String × String) :=
  let one (front : List String) : Reader (List String ⊕ (List String × String)) := do
    if depthLimit ≤ front.length then Reader.refuse
    spaces
    let part ← readPart
    spaces
    if (← Reader.peek?) = some '.' then
      Reader.char '.'
      return .inl (front ++ [part])
    else return .inr (front, part)
  Reader.repeatFrom one []

/-! ## Values -/

/-- A character of a value without quotes. -/
def isScalarChar (c : Char) : Bool :=
  c.isAlphanum || c == '_' || c == '-' || c == '+' || c == '.' || c == ':'

/-- A value without quotes. One blank may stand between a date and a time. -/
def readScalar : Reader Item := fun s =>
  let front := s.takeWhile isScalarChar
  let rest := s.dropWhile isScalarChar
  match rest with
  | ' ' :: c :: more =>
    if afterDate? front = some [] ∧ c.isDigit then
      let back := (c :: more).takeWhile isScalarChar
      (scalar? (front ++ ' ' :: back)).map (·, (c :: more).dropWhile isScalarChar)
    else (scalar? front).map (·, rest)
  | _ => (scalar? front).map (·, rest)

/-- A value that holds no others. -/
def readSimple : Reader Item := do
  match ← Reader.peek? with
  | some '"' | some '\'' => .text <$> readText
  | _ => readScalar

/-- The items of an array from behind its bracket. -/
def readItems (value : Reader Item) : Reader Item :=
  let one (done : List Item) : Reader (List Item ⊕ Item) := do
    between
    if (← Reader.peek?) = some ']' then
      Reader.char ']'
      return .inr (.array done.reverse)
    else
      let done := (← value) :: done
      between
      if (← Reader.peek?) = some ',' then
        Reader.char ','
        return .inl done
      else
        Reader.char ']'
        return .inr (.array done.reverse)
  Reader.repeatFrom one []

/-- A key and its value, added to the entries of a table by `add`. The sign between them stands
apart from them by `gap`. -/
def readEntry (gap : Reader Unit) (value : Reader Item)
    (add : List String → String → Item → Option Entries) : Reader Entries := do
  let (path, key) ← readKey
  gap
  Reader.char '='
  gap
  let v ← value
  match add path key v with
  | some es => return es
  | none => Reader.refuse

/-- The entries of a table from behind its brace. -/
def readInline (value : Reader Item) : Reader Item :=
  let one (es : Entries) : Reader (Entries ⊕ Item) := do
    between
    if (← Reader.peek?) = some '\x7d' then
      Reader.char '\x7d'
      return .inr (.table .inline es)
    else
      let es ← readEntry between value fun path key v => addEntry path key v .inline es
      between
      if (← Reader.peek?) = some ',' then
        Reader.char ','
        return .inl es
      else
        Reader.char '\x7d'
        return .inr (.table .inline es)
  Reader.repeatFrom one []

/-- A value with at most `depth` arrays and tables in braces within each other. -/
def readValue : Nat → Reader Item
  | 0 => readSimple
  | depth + 1 => do
    match ← Reader.peek? with
    | some '[' => do
      Reader.char '['
      readItems (readValue depth)
    | some '\x7b' => do
      Reader.char '\x7b'
      readInline (readValue depth)
    | _ => readSimple

/-! ## Lines -/

/-- A document while it is read: its entries, and where the table is that was opened last. -/
structure State where
  entries : Entries := []
  current : List String := []

/-- A header from behind its bracket. -/
def readHeader (s : State) : Reader State := do
  let many := (← Reader.peek?) = some '['
  if many then Reader.char '['
  let (path, key) ← readKey
  Reader.char ']'
  if many then Reader.char ']'
  match if many then addItem path key s.entries else addHeader path key s.entries with
  | some es => return ⟨es, path ++ [key]⟩
  | none => Reader.refuse

/-- A line with its line break, or the end of the document. -/
def readDocumentLine (s : State) : Reader (State ⊕ Entries) := do
  if (← Reader.peek?).isNone then return .inr s.entries
  spaces
  let s ← match ← Reader.peek? with
    | none | some '\n' | some '\r' | some '#' => pure s
    | some '[' => do
      Reader.char '['
      readHeader s
    | some _ => do
      let es ← readEntry spaces (readValue depthLimit) fun path key v =>
        addEntryAt s.current path key v s.entries
      pure { s with entries := es }
  spaces
  comment
  if (← Reader.peek?).isSome then lineBreak
  return .inl s

/-- The entries of the document that a text is. A mark of the byte order at its start is passed
over. -/
def parse (text : String) : Option Entries :=
  let cs := text.toList
  let cs := if cs.head? = some '\uFEFF' then cs.drop 1 else cs
  (Reader.repeatFrom readDocumentLine {} cs).map (·.1)

end SelectQuery.Toml
