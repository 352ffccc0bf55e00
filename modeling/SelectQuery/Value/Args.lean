import SelectQuery.Value.Basic

/-!
# Value/Args — arguments in the order of their placeholders

The arguments of a statement are a list, which is read by position as well. A position that the list
does not have is a mistake of the caller, and said to be one.
-/

namespace SelectQuery

/-- Arguments in the order of their placeholders, the first at position zero. -/
abbrev Args := List Value

/-- A position that a list does not have. -/
structure OutOfBounds where
  size : Nat
  position : Nat
  deriving DecidableEq, Repr

/-- The mistake in words. -/
def OutOfBounds.message (e : OutOfBounds) : String :=
  "index out of bounds: the len is " ++ toString e.size ++ " but the index is " ++
    toString e.position

/-- The argument at a position. -/
def Args.get (args : Args) (position : Nat) : Except OutOfBounds Value :=
  match args[position]? with
  | some v => .ok v
  | none => .error ⟨args.length, position⟩

end SelectQuery
