import Std.Data.TreeMap
import SelectQuery.Provider
import SelectQuery.Settings

/-!
# Dialect/Registry — dialects by name

A registry knows dialects by their names in lower case (of ASCII), and lists them in order. A name
is looked up without the blanks around it, whatever the case of its letters; under one name the
dialect registered last is found.
-/

namespace SelectQuery

/-- The dialects that are known, by their names in lower case. -/
structure Registry where
  dialects : Std.TreeMap String Dialect := ∅

namespace Registry

/-- The registry with one dialect more. -/
def register (r : Registry) (d : Dialect) : Traced Registry := do
  let key := d.name.toLower
  Traced.report (.registering key)
  return ⟨r.dialects.insert key d⟩

/-- The registry of the built-in dialects. -/
def builtIn : Traced Registry := Dialect.builtIn.foldlM register {}

/-- The dialect of a name, or the fault that there is none. -/
def get (r : Registry) (name : String) : Except Fault Dialect :=
  match r.dialects[Text.folded name]? with
  | some d => .ok d
  | none => .error (.unknownDialect name)

/-- The registry has a dialect of that name. -/
def contains (r : Registry) (name : String) : Bool := r.dialects.contains (Text.folded name)

/-- The names of the dialects in ascending order. -/
def names (r : Registry) : List String := r.dialects.keys

/-- The provider of the dialect of a name. -/
def provider (r : Registry) (name : String) : Except Fault Provider :=
  (r.get name).map Provider.ofDialect

/-- The provider that settings ask for. -/
def providerFor (r : Registry) (s : Settings) : Except Fault Provider :=
  (r.provider s.dialect).map fun p => p.withMaxLimit s.maxLimit

end Registry

end SelectQuery
