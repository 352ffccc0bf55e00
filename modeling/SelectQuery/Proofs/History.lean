import Mathlib.Data.List.Basic
import SelectQuery.Proofs.Session

/-!
# Proofs/History — what a query keeps of its history

A step appends to one of three lists or replaces one of three numbers, and it looks at nothing while
it does so.  So what steps leave behind is said without running them: the columns, conditions and
orders that they add, in their order, and the last limit, offset and ceiling (`Query.replay_eq`).
Histories that agree on these six are one history to a query, however steps of different kinds are
mixed in them (`Query.replay_congr`).
-/

namespace SelectQuery

namespace Step

variable {α : Type}

/-! ## What a step says -/

/-- The columns that a step adds. -/
def columns : Step → List String
  | select names => names
  | column name => [name]
  | _ => []

/-- The condition that a step adds. -/
def condition? : Step → Option Condition
  | filter c => some c
  | filterAll cs => some (.all cs)
  | filterAny cs => some (.any cs)
  | _ => none

/-- The order that a step adds; a direction given as a text is read leniently. -/
def order? : Step → Option (String × Order)
  | orderBy field order => some (field, order)
  | orderByText field direction => some (field, (Order.parseLenient direction).value)
  | _ => none

/-- The limit that a step sets. -/
def limit? : Step → Option UInt64
  | limit n => some n
  | _ => none

/-- The offset that a step sets. -/
def offset? : Step → Option UInt64
  | offset n => some n
  | _ => none

/-- The ceiling that a step sets, or that it lifts it. -/
def ceiling? : Step → Option (Option UInt64)
  | ceiling n? => some n?
  | _ => none

/-- What the last of the steps says that says anything. -/
def last? (f : Step → Option α) (steps : List Step) : Option α :=
  (steps.filterMap f).getLast?

theorem last?_cons (f : Step → Option α) (step : Step) (steps : List Step) :
    last? f (step :: steps) = (last? f steps).or (f step) := by
  rw [last?, last?, List.filterMap_eq_flatMap_toList, List.filterMap_eq_flatMap_toList,
    List.flatMap_cons, List.getLast?_append]
  cases f step <;> rfl

theorem last?_eq_none {f : Step → Option α} {steps : List Step} :
    last? f steps = none ↔ ∀ step ∈ steps, f step = none := by
  rw [last?, List.getLast?_eq_none_iff, List.filterMap_eq_nil_iff]

/-- The step is about the page: it sets a limit, an offset or a ceiling. -/
def isPaging (step : Step) : Bool :=
  step.limit?.isSome || step.offset?.isSome || step.ceiling?.isSome

/-- A step about the page adds nothing. -/
theorem adds_nothing_of_isPaging {step : Step} (h : step.isPaging) :
    step.columns = [] ∧ step.condition? = none ∧ step.order? = none := by
  cases step with
  | limit | offset | ceiling => exact ⟨rfl, rfl, rfl⟩
  | _ => cases h

/-- Steps that add nothing may be left out of what is added. -/
theorem flatMap_filter {keep : Step → Bool} {f : Step → List α}
    (h : ∀ step, keep step = false → f step = []) (steps : List Step) :
    (steps.filter keep).flatMap f = steps.flatMap f := by
  induction steps with
  | nil => rfl
  | cons step steps ih =>
    rw [List.flatMap_cons, ← ih]
    cases hkeep : keep step with
    | false => rw [h step hkeep, List.nil_append, List.filter_cons_of_neg (by simp [hkeep])]
    | true => rw [List.filter_cons_of_pos hkeep, List.flatMap_cons]

/-- Steps that say nothing may be left out of what is said. -/
theorem filterMap_filter {keep : Step → Bool} {f : Step → Option α}
    (h : ∀ step, keep step = false → f step = none) (steps : List Step) :
    (steps.filter keep).filterMap f = steps.filterMap f := by
  rw [List.filterMap_eq_flatMap_toList, List.filterMap_eq_flatMap_toList]
  exact flatMap_filter (fun step hstep => by rw [h step hstep, Option.toList_none]) steps

end Step

namespace Query

/-- **What a step leaves behind.** -/
theorem after_value (q : Query) (step : Step) : (q.after step).value = { q with
    columns := q.columns ++ step.columns
    conditions := q.conditions ++ step.condition?.toList
    orders := q.orders ++ step.order?.toList
    page := ⟨step.limit?.or q.page.limit, step.offset?.or q.page.offset⟩
    ceiling := step.ceiling?.getD q.ceiling } := by
  cases step <;>
    simp [after, filter, orderBy, Step.columns, Step.condition?, Step.order?, Step.limit?,
      Step.offset?, Step.ceiling?] <;> rfl

/-- **What steps leave behind**: all that they add, in order, and of limits, offsets and ceilings
the last. -/
theorem replay_eq (q : Query) (steps : List Step) : q.replay steps = { q with
    columns := q.columns ++ steps.flatMap Step.columns
    conditions := q.conditions ++ steps.filterMap Step.condition?
    orders := q.orders ++ steps.filterMap Step.order?
    page := ⟨(Step.last? Step.limit? steps).or q.page.limit,
      (Step.last? Step.offset? steps).or q.page.offset⟩
    ceiling := (Step.last? Step.ceiling? steps).getD q.ceiling } := by
  induction steps generalizing q with
  | nil => simp [replay, Step.last?]
  | cons step steps ih =>
    have hreplay : q.replay (step :: steps) = (q.after step).value.replay steps := rfl
    rw [hreplay, ih, after_value]
    simp only [Step.last?_cons, List.filterMap_eq_flatMap_toList, List.flatMap_cons,
      List.append_assoc, Option.or_assoc, Option.getD_or]

variable {steps steps' : List Step}

/-- **Histories that agree on what is left of them are one history.** -/
theorem replay_congr (q : Query)
    (hcolumns : steps.flatMap Step.columns = steps'.flatMap Step.columns)
    (hconditions : steps.filterMap Step.condition? = steps'.filterMap Step.condition?)
    (horders : steps.filterMap Step.order? = steps'.filterMap Step.order?)
    (hlimit : Step.last? Step.limit? steps = Step.last? Step.limit? steps')
    (hoffset : Step.last? Step.offset? steps = Step.last? Step.offset? steps')
    (hceiling : Step.last? Step.ceiling? steps = Step.last? Step.ceiling? steps') :
    q.replay steps = q.replay steps' := by
  rw [replay_eq, replay_eq, hcolumns, hconditions, horders, hlimit, hoffset, hceiling]

/-- **The order of limits, offsets and ceilings does not matter**, beyond the last of each. -/
theorem replay_congr_of_paging (q : Query)
    (hothers : steps.filter (!·.isPaging) = steps'.filter (!·.isPaging))
    (hlimit : Step.last? Step.limit? steps = Step.last? Step.limit? steps')
    (hoffset : Step.last? Step.offset? steps = Step.last? Step.offset? steps')
    (hceiling : Step.last? Step.ceiling? steps = Step.last? Step.ceiling? steps') :
    q.replay steps = q.replay steps' := by
  have hadds (step : Step) (h : (!step.isPaging) = false) :
      step.columns = [] ∧ step.condition? = none ∧ step.order? = none :=
    Step.adds_nothing_of_isPaging (by simpa using h)
  refine q.replay_congr ?_ ?_ ?_ hlimit hoffset hceiling
  · rw [← Step.flatMap_filter (fun step h => (hadds step h).1) steps, hothers,
      Step.flatMap_filter (fun step h => (hadds step h).1) steps']
  · rw [← Step.filterMap_filter (fun step h => (hadds step h).2.1) steps, hothers,
      Step.filterMap_filter (fun step h => (hadds step h).2.1) steps']
  · rw [← Step.filterMap_filter (fun step h => (hadds step h).2.2) steps, hothers,
      Step.filterMap_filter (fun step h => (hadds step h).2.2) steps']

end Query

end SelectQuery
