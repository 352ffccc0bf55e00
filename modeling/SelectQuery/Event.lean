import SelectQuery.Fault

/-!
# Event — what happened along the way

Some operations report on their way: a dialect is registered, a limit is lowered, a query is built.
`Traced` is a result together with the reports, in their order. Reports never change a result.
-/

namespace SelectQuery

/-- How much a report matters. -/
inductive Level where
  | trace
  | debug
  | warn
  deriving DecidableEq, Repr

/-- The level in capitals. -/
def Level.text : Level → String
  | trace => "TRACE"
  | debug => "DEBUG"
  | warn => "WARN"

/-- A report. -/
inductive Event where
  /-- A dialect enters a registry under a key. -/
  | registering (key : String)
  /-- A condition by itself could not be written. -/
  | conditionFailed (dialect : String) (fault : Fault)
  /-- A condition of a query could not be written. -/
  | filterFailed (dialect table : String) (fault : Fault)
  /-- A query was built with so many arguments. -/
  | built (dialect table : String) (args : Nat)
  /-- A limit above the ceiling is lowered to it. -/
  | clamping (limit ceiling : UInt64)
  /-- A text named no direction, and rows are ordered upwards. -/
  | unrecognizedOrder (text : String)
  deriving DecidableEq, Repr

namespace Event

/-- How much a report matters. -/
def level : Event → Level
  | registering _ => .trace
  | conditionFailed .. | filterFailed .. | built .. => .debug
  | clamping .. | unrecognizedOrder _ => .warn

/-- The report in words. -/
def message : Event → String
  | registering _ => "registering dialect"
  | conditionFailed .. => "condition translation failed"
  | filterFailed .. => "failed to translate WHERE clause"
  | built .. => "built query"
  | clamping .. => "limit exceeds configured ceiling, clamping"
  | unrecognizedOrder _ => "unrecognized order direction, using ASC"

/-- The particulars of a report, each as a text. -/
def fields : Event → List (String × String)
  | registering key => [("dialect", key)]
  | conditionFailed dialect fault => [("dialect", dialect), ("error", fault.message)]
  | filterFailed dialect table fault =>
    [("dialect", dialect), ("table", table), ("error", fault.message)]
  | built dialect table args => [("dialect", dialect), ("table", table), ("args", toString args)]
  | clamping limit ceiling =>
    [("limit", toString limit.toNat), ("max_limit", toString ceiling.toNat)]
  | unrecognizedOrder text => [("direction", text)]

end Event

/-- A result and the reports on the way to it. -/
@[ext]
structure Traced (α : Type) where
  value : α
  events : List Event

namespace Traced

instance : Monad Traced where
  pure a := ⟨a, []⟩
  bind x f := ⟨(f x.value).value, x.events ++ (f x.value).events⟩

/-- Reports an event. -/
def report (e : Event) : Traced Unit := ⟨(), [e]⟩

instance : LawfulMonad Traced :=
  LawfulMonad.mk' Traced
    (fun x => congrArg (Traced.mk x.value) (List.append_nil x.events))
    (fun _ _ => rfl)
    (fun x f g => congrArg (Traced.mk _)
      (List.append_assoc x.events (f x.value).events (g (f x.value).value).events))

/-- Reports never change a result. -/
theorem value_bind {α β : Type} (x : Traced α) (f : α → Traced β) :
    (x >>= f).value = (f x.value).value := rfl

/-- What comes next is reported behind what has been. -/
theorem events_bind {α β : Type} (x : Traced α) (f : α → Traced β) :
    (x >>= f).events = x.events ++ (f x.value).events := rfl

/-- What comes next is asked about the result alone. -/
theorem bind_congr {α β : Type} {x : Traced α} {f g : α → Traced β} (h : f x.value = g x.value) :
    x >>= f = x >>= g :=
  congrArg (fun y : Traced β => (⟨y.value, x.events ++ y.events⟩ : Traced β)) h

end Traced

/-- The direction that a text names; ascending, with a report, where it names none. -/
def Order.parseLenient (s : String) : Traced Order :=
  match Order.ofText? s with
  | some o => pure o
  | none => do
    Traced.report (.unrecognizedOrder s)
    return .asc

end SelectQuery
