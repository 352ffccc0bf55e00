/-!
# Text/Reader — reading from the front of a text

A reader takes what it recognises off the front of a list of characters and returns what is left,
or refuses. `repeatFrom` is the one loop: it stops when its step says so, and a step that takes
nothing off ends the reading in refusal, so every loop ends.
-/

namespace SelectQuery.Text

/-- Takes a value off the front of the remaining text, or refuses. -/
abbrev Reader := StateT (List Char) Option

namespace Reader

variable {α σ : Type}

/-- Refuses whatever is left. -/
def refuse : Reader α := fun _ => none

/-- The next character, which stays. -/
def peek? : Reader (Option Char) := fun s => some (s.head?, s)

/-- Takes the next character, or refuses at the end. -/
def next : Reader Char
  | c :: s => some (c, s)
  | [] => none

/-- Takes the character `c`, or refuses. -/
def char (c : Char) : Reader Unit
  | d :: s => if d = c then some ((), s) else none
  | [] => none

/-- Takes the characters of a word in order, or refuses. -/
def word : List Char → Reader Unit
  | [] => fun s => some ((), s)
  | c :: cs => fun s =>
    match s with
    | d :: s => if d = c then word cs s else none
    | [] => none

/-- Takes the longest run of characters of a class. -/
def span (p : Char → Bool) : Reader (List Char) := fun s => some (s.takeWhile p, s.dropWhile p)

/-- Drops the longest run of characters of a class. -/
def skip (p : Char → Bool) : Reader Unit := fun s => some ((), s.dropWhile p)

/-- Runs `step` from `a` until it yields an answer; each further round has to take something. -/
def repeatFrom (step : σ → Reader (σ ⊕ α)) (a : σ) : Reader α := fun s =>
  match step a s with
  | none => none
  | some (.inr answer, rest) => some (answer, rest)
  | some (.inl b, rest) => if rest.length < s.length then repeatFrom step b rest else none
termination_by s => s.length

/-- The value of a reader that takes the whole text. -/
def whole (r : Reader α) (s : String) : Option α :=
  match r s.toList with
  | some (a, []) => some a
  | _ => none

end Reader

end SelectQuery.Text
