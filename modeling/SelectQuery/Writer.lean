import SelectQuery.Dialect.Basic
import SelectQuery.Value.Args

/-!
# Writer — a statement while it is written

A writer holds the text so far, the arguments so far and the number of the next placeholder. Text
and arguments only grow, and the number of the next placeholder is always one more than the number
of arguments. A `Writing` may fail and may report on its way; what it had written by then stays
written.
-/

namespace SelectQuery

/-- A text with placeholders and the arguments for them. -/
structure Statement where
  text : String
  args : Args

/-- A statement while it is written. -/
structure Writer where
  text : String := ""
  args : Args := []
  /-- The number of the next placeholder. -/
  next : Nat := 1

namespace Writer

/-- Appends a text. -/
def push (s : String) (w : Writer) : Writer := { w with text := w.text ++ s }

/-- Appends a space, unless the text is empty or ends in one. -/
def space (w : Writer) : Writer :=
  match w.text.toList.getLast? with
  | none | some ' ' => w
  | some _ => w.push " "

/-- Appends a keyword, apart from what is before it. -/
def keyword (s : String) (w : Writer) : Writer := w.space.push s

/-- Appends a name in the quotes of the dialect. -/
def name (d : Dialect) (s : String) (w : Writer) : Writer := w.push (d.quoteName s)

/-- Appends the next placeholder and keeps the value for it. -/
def value (d : Dialect) (v : Value) (w : Writer) : Writer where
  text := w.text ++ d.placeholder w.next
  args := w.args ++ [v]
  next := w.next + 1

/-- The statement as it stands. -/
def statement (w : Writer) : Statement := ⟨w.text, w.args⟩

end Writer

/-- Something to write, which may fail and may report, and leaves what it has written. -/
abbrev Writing := ExceptT Fault (StateT Writer Traced)

namespace Writing

variable {α : Type}

/-- Appends a text. -/
def push (s : String) : Writing Unit := modify (Writer.push s)

/-- Appends a space where one is needed. -/
def space : Writing Unit := modify Writer.space

/-- Appends a keyword. -/
def keyword (s : String) : Writing Unit := modify (Writer.keyword s)

/-- Appends a name. -/
def name (d : Dialect) (s : String) : Writing Unit := modify (Writer.name d s)

/-- Appends a placeholder for a value; the answer is its number. -/
def value (d : Dialect) (v : Value) : Writing Nat := do
  let n := (← get).next
  modify (Writer.value d v)
  return n

/-- Writes items in order with a separator between neighbours, up to the first that fails. -/
def list (separator : String) (item : α → Writing Unit) : List α → Writing Unit
  | [] => pure ()
  | [x] => item x
  | x :: y :: rest => do
    item x
    push separator
    list separator item (y :: rest)

/-- Reports an event. -/
def report (e : Event) : Writing Unit := liftM (Traced.report e)

/-- Reports the fault that stops it, if any does. -/
def reporting (e : Fault → Event) (x : Writing α) : Writing α :=
  tryCatch x fun fault => do
    report (e fault)
    throw fault

/-- Runs on a writer: the outcome, the writer as it is left, and what is reported on the way. -/
def traced (x : Writing α) (w : Writer) : Traced (Except Fault α × Writer) := (ExceptT.run x).run w

/-- The outcome of a run on a writer, and the writer as it is left. -/
def on (x : Writing α) (w : Writer) : Except Fault α × Writer := (x.traced w).value

end Writing

end SelectQuery
