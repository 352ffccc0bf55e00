import SelectQuery.Writer

/-!
# Proofs/Piece — a statement in pieces

A text forgets what it was made of.  **Pieces** remember: words of SQL, names before they are
quoted, marks that still carry their argument, and the blanks between them.  `spell` is the text of
pieces on a dialect, and `Writer.text_putAll` says that a writer to which pieces are put holds that
text, the arguments of the marks beside it.

A **token** is a piece that is no blank.  What its marks carry depends on who looks at them: the
argument, the text of the placeholder, or its number.
-/

namespace SelectQuery

/-- A word of SQL, a name without its quotes, or a mark for an argument. -/
inductive Token (μ : Type) where
  | word (s : String)
  | name (s : String)
  | mark (m : μ)
  deriving DecidableEq, Repr

namespace Token

variable {μ ν : Type}

/-- What the marks carry, in order. -/
def marks : List (Token μ) → List μ
  | [] => []
  | .mark m :: ts => m :: marks ts
  | .word _ :: ts => marks ts
  | .name _ :: ts => marks ts

/-- The tokens with their marks numbered from `k`, each carrying what `f` says of its number. -/
def number (f : Nat → ν) : Nat → List (Token μ) → List (Token ν)
  | _, [] => []
  | k, .mark _ :: ts => .mark (f k) :: number f (k + 1) ts
  | k, .word s :: ts => .word s :: number f k ts
  | k, .name s :: ts => .name s :: number f k ts

/-- The tokens with one argument for each mark, in order; fails unless there are as many. -/
def bind : List (Token μ) → List ν → Option (List (Token ν))
  | [], [] => some []
  | [], _ :: _ => none
  | .mark _ :: ts, v :: vs => (bind ts vs).map (.mark v :: ·)
  | .mark _ :: _, [] => none
  | .word s :: ts, vs => (bind ts vs).map (.word s :: ·)
  | .name s :: ts, vs => (bind ts vs).map (.name s :: ·)

/-- Marks are read from left to right. -/
theorem marks_append (ts us : List (Token μ)) : marks (ts ++ us) = marks ts ++ marks us := by
  induction ts with
  | nil => rfl
  | cons t ts ih => cases t <;> simp [marks, ih]

/-- Numbered marks carry the numbers in a row. -/
theorem marks_number (f : Nat → ν) (k : Nat) (ts : List (Token μ)) :
    marks (number f k ts) = (List.range' k (marks ts).length).map f := by
  induction ts generalizing k with
  | nil => rfl
  | cons t ts ih => cases t <;> simp [marks, number, ih, List.range'_succ]

/-- **Numbering loses nothing that the arguments do not give back.** -/
theorem bind_number (f : Nat → ν) (k : Nat) (ts : List (Token μ)) :
    bind (number f k ts) (marks ts) = some ts := by
  induction ts generalizing k with
  | nil => rfl
  | cons t ts ih => cases t <;> simp [marks, number, bind, ih]

end Token

/-- A piece of a statement. -/
inductive Piece where
  | blank
  | word (s : String)
  | name (s : String)
  /-- The place of an argument. -/
  | mark (v : Value)

namespace Piece

/-- The token that a piece is. -/
def token? : Piece → Option (Token Value)
  | blank => none
  | word s => some (.word s)
  | name s => some (.name s)
  | mark v => some (.mark v)

/-- The piece has the same text on every dialect. -/
def isFixed : Piece → Bool
  | blank | word _ => true
  | name _ | mark _ => false

end Piece

/-- The tokens among pieces. -/
def tokens (ps : List Piece) : List (Token Value) := ps.filterMap Piece.token?

@[simp] theorem tokens_nil : tokens [] = [] := rfl

/-- Leaving out blanks looks at one piece at a time. -/
@[simp] theorem tokens_append (ps qs : List Piece) : tokens (ps ++ qs) = tokens ps ++ tokens qs :=
  List.filterMap_append

/-- A blank is no token. -/
@[simp] theorem tokens_blank (ps : List Piece) : tokens (.blank :: ps) = tokens ps := rfl

@[simp] theorem tokens_word (s : String) (ps : List Piece) :
    tokens (.word s :: ps) = .word s :: tokens ps := rfl

@[simp] theorem tokens_name (s : String) (ps : List Piece) :
    tokens (.name s :: ps) = .name s :: tokens ps := rfl

@[simp] theorem tokens_mark (v : Value) (ps : List Piece) :
    tokens (.mark v :: ps) = .mark v :: tokens ps := rfl

/-- The arguments of the marks, in order. -/
def arguments (ps : List Piece) : List Value := Token.marks (tokens ps)

/-- Arguments stand in the order of their marks. -/
@[simp] theorem arguments_append (ps qs : List Piece) :
    arguments (ps ++ qs) = arguments ps ++ arguments qs := by
  simp [arguments, Token.marks_append]

/-! ## The text of pieces -/

/-- The text of pieces on a dialect, their marks numbered from `k`. -/
def spell (d : Dialect) : Nat → List Piece → List Char
  | _, [] => []
  | k, .blank :: ps => ' ' :: spell d k ps
  | k, .word s :: ps => s.toList ++ spell d k ps
  | k, .name s :: ps => (d.quoteName s).toList ++ spell d k ps
  | k, .mark _ :: ps => (d.placeholder k).toList ++ spell d (k + 1) ps

/-- What stands behind pieces is spelled with the numbers behind theirs. -/
theorem spell_append (d : Dialect) (k : Nat) (ps qs : List Piece) :
    spell d k (ps ++ qs) = spell d k ps ++ spell d (k + (arguments ps).length) qs := by
  induction ps generalizing k with
  | nil => simp [spell, arguments, Token.marks]
  | cons p ps ih =>
    cases p <;> simp [spell, ih, arguments, Token.marks, Nat.add_assoc, Nat.add_comm 1]

/-- The text depends on the dialect through its names and placeholders alone. -/
theorem spell_congr {d e : Dialect} (hn : d.quoteName = e.quoteName)
    (hp : d.placeholder = e.placeholder) (k : Nat) (ps : List Piece) :
    spell d k ps = spell e k ps := by
  induction ps generalizing k with
  | nil => rfl
  | cons p ps ih => cases p <;> simp [spell, ih, hn, hp]

/-- The text of blanks and words. -/
def fixedText : List Piece → String
  | [] => ""
  | .blank :: ps => " " ++ fixedText ps
  | .word s :: ps => s ++ fixedText ps
  | .name _ :: ps | .mark _ :: ps => fixedText ps

/-! ## Writers to which pieces are put -/

namespace Writer

/-- Appends a piece. -/
def put (d : Dialect) (w : Writer) : Piece → Writer
  | .blank => w.push " "
  | .word s => w.push s
  | .name s => w.name d s
  | .mark v => w.value d v

/-- Appends pieces. -/
def putAll (d : Dialect) (w : Writer) (ps : List Piece) : Writer := ps.foldl (put d) w

@[simp] theorem putAll_nil (d : Dialect) (w : Writer) : w.putAll d [] = w := rfl

@[simp] theorem putAll_cons (d : Dialect) (w : Writer) (p : Piece) (ps : List Piece) :
    w.putAll d (p :: ps) = (w.put d p).putAll d ps := rfl

/-- Pieces are put one after the other. -/
theorem putAll_append (d : Dialect) (w : Writer) (ps qs : List Piece) :
    w.putAll d (ps ++ qs) = (w.putAll d ps).putAll d qs := List.foldl_append

/-- **The counter goes on by one for each mark**, and by nothing else. -/
theorem next_putAll (d : Dialect) (w : Writer) (ps : List Piece) :
    (w.putAll d ps).next = w.next + (arguments ps).length := by
  induction ps generalizing w with
  | nil => rfl
  | cons p ps ih =>
    cases p <;> simp [ih, put, push, name, value, arguments, Token.marks, Nat.add_assoc,
      Nat.add_comm 1]

/-- The writer keeps the arguments of the marks, behind those that it has. -/
theorem args_putAll (d : Dialect) (w : Writer) (ps : List Piece) :
    (w.putAll d ps).args = w.args ++ arguments ps := by
  induction ps generalizing w with
  | nil => simp [arguments, Token.marks]
  | cons p ps ih => cases p <;> simp [ih, put, push, name, value, arguments, Token.marks]

/-- **A writer holds the text of the pieces that are put to it.** -/
theorem text_putAll (d : Dialect) (w : Writer) (ps : List Piece) :
    (w.putAll d ps).text.toList = w.text.toList ++ spell d w.next ps := by
  induction ps generalizing w with
  | nil => simp [spell]
  | cons p ps ih => cases p <;> simp [ih, put, push, name, value, spell]

/-- Blanks and words are put as one text. -/
theorem push_fixedText (d : Dialect) (w : Writer) {ps : List Piece}
    (h : ps.all Piece.isFixed = true) : w.push (fixedText ps) = w.putAll d ps := by
  induction ps generalizing w with
  | nil => simp [push, fixedText]
  | cons p ps ih =>
    obtain ⟨hp, hps⟩ : p.isFixed = true ∧ ps.all Piece.isFixed = true := by simpa using h
    rw [putAll_cons, ← ih (w.put d p) hps]
    cases p <;> simp_all [push, put, fixedText, Piece.isFixed, String.append_assoc]

/-- The statement of the pieces that are put to a new writer. -/
theorem statement_putAll (d : Dialect) (ps : List Piece) :
    (putAll d {} ps).statement = ⟨String.ofList (spell d 1 ps), arguments ps⟩ := by
  have ht : (putAll d {} ps).text = String.ofList (spell d 1 ps) := by
    rw [← String.toList_inj, text_putAll]
    simp
  have ha : (putAll d {} ps).args = arguments ps := by
    rw [args_putAll]
    simp
  rw [statement, ht, ha]

end Writer

end SelectQuery
