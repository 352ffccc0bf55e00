import SelectQuery.Json.Numeral
import SelectQuery.Text.Hex

/-!
# Json/Written — JSON texts as they are written

A text is first read for its form alone: numerals keep their digits, objects keep every field in the
order of the text, and a string with half of a surrogate pair has no content. `Json.parse` then asks
for more than form: content in every string, numbers in range and a bounded depth. It puts the
fields of an object in order, so what it gives is a document (`ordered_of_toJson?`). Other readers
(`Capabilities`) pass over the parts of a text that they do not know, and ask only for the form.
-/

namespace SelectQuery.Json

open Text (Reader)

/-- A text as it is written. -/
inductive Written where
  | null
  | bool (b : Bool)
  | number (n : Numeral)
  | text (content : Option String)
  | array (items : List Written)
  | object (fields : List (Option String × Written))

/-- The blanks between the parts of a text. -/
def isSpace (c : Char) : Bool := c == ' ' || c == '\n' || c == '\t' || c == '\r'

/-! ## Strings -/

/-- A part of a string: a character, or an escaped sixteen-bit unit. -/
inductive Piece where
  | char (c : Char)
  | unit (n : Nat)

/-- The character that a letter behind a backslash stands for. -/
def unescape? : Char → Option Char
  | '"' => some '"'
  | '\\' => some '\\'
  | '/' => some '/'
  | 'b' => some '\x08'
  | 'f' => some '\x0c'
  | 'n' => some '\n'
  | 'r' => some '\r'
  | 't' => some '\t'
  | _ => none

/-- The pieces of a string up to its closing quote. Control characters have to be escaped. -/
def pieces : List Char → Option (List Piece × List Char)
  | [] => none
  | '"' :: rest => some ([], rest)
  | '\\' :: 'u' :: a :: b :: c :: d :: rest => do
    let n ← Text.hexNumber? [a, b, c, d]
    let (ps, rest) ← pieces rest
    return (.unit n :: ps, rest)
  | '\\' :: c :: rest => do
    let c ← unescape? c
    let (ps, rest) ← pieces rest
    return (.char c :: ps, rest)
  | c :: rest =>
    if c.toNat < 0x20 then none
    else do
      let (ps, rest) ← pieces rest
      return (.char c :: ps, rest)

/-- The text of pieces. Two units that are a surrogate pair are one character; a surrogate alone is
none. -/
def joinPieces : List Piece → Option (List Char)
  | [] => some []
  | .char c :: ps => (joinPieces ps).map (c :: ·)
  | .unit m :: .unit n :: ps =>
    if 0xD800 ≤ m ∧ m < 0xDC00 then
      if 0xDC00 ≤ n ∧ n < 0xE000 then
        (joinPieces ps).map (Char.ofNat (0x10000 + (m - 0xD800) * 0x400 + (n - 0xDC00)) :: ·)
      else none
    else if 0xDC00 ≤ m ∧ m < 0xE000 then none
    else (joinPieces (.unit n :: ps)).map (Char.ofNat m :: ·)
  | .unit m :: ps =>
    if 0xD800 ≤ m ∧ m < 0xE000 then none else (joinPieces ps).map (Char.ofNat m :: ·)

/-- A string from its opening quote on. -/
def readString : Reader (Option String) := do
  Reader.char '"'
  let ps ← pieces
  return (joinPieces ps).map String.ofList

/-! ## Documents -/

/-- Items of one kind up to `close`, with commas between them. -/
def readItems {α : Type} (item : Reader α) (close : Char) : Reader (List α) := do
  Reader.skip isSpace
  if (← Reader.peek?) = some close then
    Reader.char close
    return []
  else
    let one (done : List α) : Reader (List α ⊕ List α) := do
      let done := (← item) :: done
      Reader.skip isSpace
      if (← Reader.peek?) = some ',' then
        Reader.char ','
        return .inl done
      else
        Reader.char close
        return .inr done.reverse
    Reader.repeatFrom one []

/-- A field: key, colon and value. -/
def readField {α : Type} (value : Reader α) : Reader (Option String × α) := do
  Reader.skip isSpace
  let key ← readString
  Reader.skip isSpace
  Reader.char ':'
  return (key, ← value)

/-- A document with less than `depth` levels, blanks in front included. -/
def Written.read : Nat → Reader Written
  | 0 => Reader.refuse
  | depth + 1 => do
    Reader.skip isSpace
    match ← Reader.peek? with
    | some '\x7b' => do
      Reader.char '\x7b'
      .object <$> readItems (readField (read depth)) '\x7d'
    | some '[' => do
      Reader.char '['
      .array <$> readItems (read depth) ']'
    | some '"' => .text <$> readString
    | some 'n' => do Reader.word "null".toList; return .null
    | some 't' => do Reader.word "true".toList; return .bool true
    | some 'f' => do Reader.word "false".toList; return .bool false
    | _ => .number <$> Numeral.read

/-- The form of a whole text. Every level takes a character, so no text has more of them than
characters. -/
def Written.parse (s : String) : Option Written :=
  let document : Reader Written := do
    let w ← Written.read (s.length + 1)
    Reader.skip isSpace
    return w
  document.whole s

/-! ## From the form to the value -/

/-- How many arrays and objects may be open at once. -/
def depthLimit : Nat := 127

mutual

/-- The value of a text, if it has content, range and no more than `depth` levels open. -/
def Written.toJson? (depth : Nat) : Written → Option Json
  | .null => some .null
  | .bool b => some (.bool b)
  | .number n => n.toNumber?.map .number
  | .text content => content.map .text
  | .array items => if depth = 0 then none else (itemsToJson? (depth - 1) items).map .array
  | .object fields => if depth = 0 then none else (fieldsToJson? (depth - 1) [] fields).map .object

/-- The values of the items of an array. -/
def Written.itemsToJson? (depth : Nat) : List Written → Option (List Json)
  | [] => some []
  | w :: ws => do
    let v ← w.toJson? depth
    let vs ← itemsToJson? depth ws
    return v :: vs

/-- The fields of an object on top of those `done`; of two with one key the later stays. -/
def Written.fieldsToJson? (depth : Nat) (done : List (String × Json)) :
    List (Option String × Written) → Option (List (String × Json))
  | [] => some done
  | (key, w) :: rest => do
    let key ← key
    let v ← w.toJson? depth
    fieldsToJson? depth (putField key v done) rest

end

/-! ## The order of fields -/

theorem mem_putField {key : String} {v : Json} {f : String × Json} {fields : List (String × Json)}
    (h : f ∈ putField key v fields) : f = (key, v) ∨ f ∈ fields := by
  induction fields with
  | nil => exact .inl (List.mem_singleton.mp h)
  | cons g rest ih =>
    rw [putField] at h
    split at h
    · exact List.mem_cons.mp h
    · split at h
      · exact (List.mem_cons.mp h).imp_right (List.mem_cons_of_mem g)
      · cases List.mem_cons.mp h with
        | inl e => exact .inr (e ▸ List.mem_cons_self)
        | inr h => exact (ih h).imp_right (List.mem_cons_of_mem g)

/-- **A field is put where its key belongs.** -/
theorem pairwise_putField {key : String} {v : Json} {fields : List (String × Json)}
    (h : fields.Pairwise fun f g => f.1 < g.1) :
    (putField key v fields).Pairwise fun f g => f.1 < g.1 := by
  induction fields with
  | nil => exact List.pairwise_singleton _ (key, v)
  | cons g rest ih =>
    obtain ⟨k, w⟩ := g
    obtain ⟨hk, hrest⟩ := List.pairwise_cons.mp h
    rw [putField]
    split
    · next hlt =>
      exact List.pairwise_cons.mpr
        ⟨List.forall_mem_cons.mpr ⟨hlt, fun f hf => String.lt_trans hlt (hk f hf)⟩, h⟩
    · next hnot =>
      split
      · next e => exact List.pairwise_cons.mpr ⟨e ▸ hk, hrest⟩
      · next hne =>
        have hlt : k < key := String.not_le.mp fun hle =>
          hne (String.le_antisymm hle (String.not_lt.mp hnot))
        refine List.pairwise_cons.mpr ⟨fun f hf => ?_, ih hrest⟩
        cases mem_putField hf with
        | inl e => exact e ▸ hlt
        | inr hf => exact hk f hf

/-- An object stays in order when a field is put into it. -/
theorem ordered_putField {key : String} {v : Json} {fields : List (String × Json)}
    (h : (object fields).Ordered) (hv : v.Ordered) : (object (putField key v fields)).Ordered := by
  cases h with
  | object hkeys h =>
    exact .object (pairwise_putField hkeys) fun f hf =>
      (mem_putField hf).elim (fun e => e ▸ hv) (h f)

mutual

/-- **The value of a text is in order**, in whatever order its fields are written. -/
theorem ordered_of_toJson? {depth : Nat} : ∀ {w : Written} {v : Json},
    w.toJson? depth = some v → v.Ordered
  | .null, _, h => by cases h; exact .null
  | .bool b, _, h => by cases h; exact .bool b
  | .number _, _, h => by
    obtain ⟨n, -, rfl⟩ := Option.map_eq_some_iff.mp h
    exact .number n
  | .text _, _, h => by
    obtain ⟨s, -, rfl⟩ := Option.map_eq_some_iff.mp h
    exact .text s
  | .array _, _, h => by
    rw [Written.toJson?] at h
    split at h
    · cases h
    · obtain ⟨vs, hvs, rfl⟩ := Option.map_eq_some_iff.mp h
      exact .array (ordered_of_itemsToJson? hvs)
  | .object _, _, h => by
    rw [Written.toJson?] at h
    split at h
    · cases h
    · obtain ⟨vs, hvs, rfl⟩ := Option.map_eq_some_iff.mp h
      exact ordered_of_fieldsToJson? (.object .nil fun _ hf => absurd hf List.not_mem_nil) hvs

theorem ordered_of_itemsToJson? {depth : Nat} : ∀ {ws : List Written} {vs : List Json},
    Written.itemsToJson? depth ws = some vs → ∀ v ∈ vs, v.Ordered
  | [], _, h => by cases h; exact fun _ hv => absurd hv List.not_mem_nil
  | w :: ws, _, h => by
    rw [Written.itemsToJson?] at h
    obtain ⟨v, hv, h⟩ := Option.bind_eq_some_iff.mp h
    obtain ⟨vs, hvs, h⟩ := Option.bind_eq_some_iff.mp h
    obtain rfl := Option.some.inj h
    exact List.forall_mem_cons.mpr ⟨ordered_of_toJson? hv, ordered_of_itemsToJson? hvs⟩

theorem ordered_of_fieldsToJson? {depth : Nat} :
    ∀ {fields : List (Option String × Written)} {done vs : List (String × Json)},
    (object done).Ordered → Written.fieldsToJson? depth done fields = some vs →
      (object vs).Ordered
  | [], _, _, hdone, h => by cases h; exact hdone
  | (_, w) :: rest, _, _, hdone, h => by
    rw [Written.fieldsToJson?] at h
    obtain ⟨k, -, h⟩ := Option.bind_eq_some_iff.mp h
    obtain ⟨v, hv, h⟩ := Option.bind_eq_some_iff.mp h
    exact ordered_of_fieldsToJson? (ordered_putField hdone (ordered_of_toJson? hv)) h

end

/-- The document of a text, if it has content, range and depth. -/
def Written.document? (w : Written) : Option Document :=
  (w.toJson? depthLimit).pmap Document.mk fun _ h => ordered_of_toJson? h

/-- The document that a text stands for. -/
def parse (s : String) : Option Document := do (← Written.parse s).document?

end SelectQuery.Json
