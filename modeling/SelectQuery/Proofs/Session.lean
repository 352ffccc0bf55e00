import Mathlib.Data.List.Induction
import SelectQuery.Provider
import SelectQuery.Query.Build

/-!
# Proofs/Session — queries do not share anything

Queries come from a provider or are copies of other queries, and each is changed and built on its
own, while the provider may be replaced.  A **session** is a provider and the queries so far, known
by their numbers; `Session.run` lets actions change it.

What a query is at the end is said by the actions alone: its **lineage** (`Descends`) is the table
and the ceiling that its first ancestor was created with, and the steps that were applied along the
line of copies, those of an ancestor up to the copy and its own after it.  `Session.isolated` says
that a query is its lineage replayed, whatever else is done before, between and after.

One action `Carries` the session on: it touches one query at most.  This is closed under sequence,
so the run lemma is a fold over the step lemma.
-/

namespace SelectQuery

/-- The query after changes. -/
def Query.replay (q : Query) (steps : List Step) : Query :=
  steps.foldl (fun q step => (q.after step).value) q

theorem Query.replay_append (q : Query) (xs ys : List Step) :
    q.replay (xs ++ ys) = (q.replay xs).replay ys := List.foldl_append

/-! ## Sessions -/

/-- What is done with queries and their provider. -/
inductive Action where
  /-- The provider hands out a query for a table. -/
  | create (table : Table)
  /-- A query is copied. -/
  | clone (i : Nat)
  /-- A query is changed. -/
  | change (i : Nat) (step : Step)
  /-- The rows of a query are asked for. -/
  | build (i : Nat)
  /-- The count of a query is asked for. -/
  | count (i : Nat)
  /-- The provider gets another ceiling. -/
  | limit (maxLimit : Option UInt64)
  /-- The provider declares other capabilities. -/
  | declare (capabilities : Capabilities)

/-- A provider and the queries so far, each with its place in the list for its number. -/
structure Session where
  provider : Provider
  queries : List Query := []

namespace Session

/-- The session with one query more. -/
def add (s : Session) (q : Query) : Session := { s with queries := s.queries ++ [q] }

/-- **What an action answers, and the session after it.**  An action on a query that is not there
is none. -/
def perform (s : Session) : Action → Option (Option (Traced (Except Fault Statement)) × Session)
  | .create table => some (none, s.add (s.provider.query table))
  | .clone i => s.queries[i]?.map fun q => (none, s.add q)
  | .change i step =>
    s.queries[i]?.map fun q => (none, { s with queries := s.queries.set i (q.after step).value })
  | .build i => s.queries[i]?.map fun q => (some q.build, s)
  | .count i => s.queries[i]?.map fun q => (some q.buildCount, s)
  | .limit maxLimit => some (none, { s with provider := s.provider.withMaxLimit maxLimit })
  | .declare capabilities =>
    some (none, { s with provider := s.provider.withCapabilities capabilities })

/-- The session after actions. -/
def run (s : Session) : List Action → Option Session
  | [] => some s
  | a :: as => (s.perform a).bind fun answered => answered.2.run as

theorem run_append (s : Session) (as bs : List Action) :
    s.run (as ++ bs) = (s.run as).bind fun t => t.run bs := by
  induction as generalizing s with
  | nil => rfl
  | cons a as ih =>
    rw [List.cons_append, run, run, Option.bind_assoc]
    exact congrArg _ (funext fun answered => ih answered.2)

end Session

/-! ## What actions say by themselves -/

namespace Action

/-- The action brings forth a query. -/
def isBirth : Action → Bool
  | create _ | clone _ => true
  | _ => false

/-- The step that the action applies to a query. -/
def stepOn? (i : Nat) : Action → Option Step
  | change j step => if j = i then some step else none
  | _ => none

/-- The ceiling of the provider after the action. -/
def ceiling (before : Option UInt64) : Action → Option UInt64
  | limit maxLimit => maxLimit
  | _ => before

end Action

/-- How many queries actions bring forth. -/
def births (as : List Action) : Nat := as.countP Action.isBirth

/-- The steps that actions apply to a query. -/
def stepsOn (i : Nat) (as : List Action) : List Step := as.filterMap (Action.stepOn? i)

theorem stepsOn_change_self (i : Nat) (step : Step) : stepsOn i [.change i step] = [step] := by
  simp [stepsOn, Action.stepOn?]

theorem stepsOn_change_of_ne {i j : Nat} (h : j ≠ i) (step : Step) :
    stepsOn i [.change j step] = [] := by
  simp [stepsOn, Action.stepOn?, h]

/-- The ceiling of the provider after actions: the last one that it gets, or the first one. -/
def ceilingAfter (first : Option UInt64) (as : List Action) : Option UInt64 :=
  as.foldl Action.ceiling first

/-- How a query has come about. -/
structure Lineage where
  table : Table
  ceiling : Option UInt64
  steps : List Step := []

/-- A new query for the table, with the ceiling set, after the steps. -/
def Lineage.replay (l : Lineage) (d : Dialect) : Query :=
  (({ table := l.table, dialect := d } : Query).after (.ceiling l.ceiling)).value.replay l.steps

/-- **The lineage of a query**, by the actions of a session.  A query is numbered by the births
before its own.  A created one starts with the ceiling of that time; a copy starts with the lineage
that the query it is made of had then. -/
inductive Descends (first : Option UInt64) : List Action → Nat → Lineage → Prop
  | created (before after : List Action) (table : Table) :
      Descends first (before ++ .create table :: after) (births before)
        ⟨table, ceilingAfter first before, stepsOn (births before) after⟩
  | cloned {before : List Action} {i : Nat} {l : Lineage} (h : Descends first before i l)
      (after : List Action) :
      Descends first (before ++ .clone i :: after) (births before)
        { l with steps := l.steps ++ stepsOn (births before) after }

/-- A query keeps its number, and a lineage, when more is done. -/
theorem Descends.append {first : Option UInt64} {as : List Action} {i : Nat} {l : Lineage}
    (h : Descends first as i l) (bs : List Action) : ∃ l', Descends first (as ++ bs) i l' := by
  cases h with
  | created before after table =>
    rw [List.append_assoc]
    exact ⟨_, .created before (after ++ bs) table⟩
  | cloned h after =>
    rw [List.append_assoc]
    exact ⟨_, .cloned h (after ++ bs)⟩

namespace Session

/-- **Actions carry a session on**: the provider keeps its dialect, the queries keep their numbers,
and each is changed by its own steps. -/
structure Carries (s : Session) (as : List Action) (t : Session) : Prop where
  dialect : t.provider.dialect = s.provider.dialect
  ceiling : t.provider.maxLimit = ceilingAfter s.provider.maxLimit as
  length : t.queries.length = s.queries.length + births as
  query : ∀ (i : Nat) (q : Query), s.queries[i]? = some q →
    t.queries[i]? = some (q.replay (stepsOn i as))

namespace Carries

variable {s t u : Session} {as bs : List Action}

theorem nil (s : Session) : Carries s [] s := ⟨rfl, rfl, rfl, fun _ _ h => h⟩

theorem append (h : Carries s as t) (h' : Carries t bs u) : Carries s (as ++ bs) u where
  dialect := h'.dialect.trans h.dialect
  ceiling := by
    rw [h'.ceiling, h.ceiling, ceilingAfter, ceilingAfter, ceilingAfter, List.foldl_append]
  length := by rw [h'.length, h.length, births, births, births, List.countP_append, Nat.add_assoc]
  query i q hq := by
    rw [stepsOn, List.filterMap_append, Query.replay_append]
    exact h'.query i _ (h.query i q hq)

/-- A query that comes last changes none before it. -/
theorem of_add (s : Session) (q : Query) {a : Action} (ha : a.isBirth = true) :
    Carries s [a] (s.add q) := by
  have hstep : ∀ i, a.stepOn? i = none := fun i => by cases a <;> first | rfl | cases ha
  have hceiling : ∀ c, a.ceiling c = c := fun c => by cases a <;> first | rfl | cases ha
  refine ⟨rfl, (hceiling _).symm, ?_, fun i q' hq => ?_⟩
  · rw [births, List.countP_singleton, if_pos ha, add, List.length_append, List.length_singleton]
  · rw [stepsOn, List.filterMap_cons_none (hstep i)]
    exact (List.getElem?_append_left (List.getElem?_eq_some_iff.mp hq).1).trans hq

/-- A query that is changed changes no other. -/
theorem of_set {s : Session} {j : Nat} {q : Query} (hq : s.queries[j]? = some q) (step : Step) :
    Carries s [.change j step] { s with queries := s.queries.set j (q.after step).value } := by
  refine ⟨rfl, rfl, List.length_set, fun i q' hq' => ?_⟩
  by_cases hj : j = i
  · subst hj
    obtain rfl : q = q' := Option.some.inj (hq.symm.trans hq')
    rw [stepsOn_change_self]
    exact List.getElem?_set_self (List.getElem?_eq_some_iff.mp hq).1
  · rw [stepsOn_change_of_ne hj]
    exact (List.getElem?_set_ne hj).trans hq'

/-- **One action changes one query at most.** -/
theorem of_perform {a : Action} {answer : Option (Traced (Except Fault Statement))}
    (h : s.perform a = some (answer, t)) : Carries s [a] t := by
  cases a with
  | create table =>
    cases h
    exact of_add s _ rfl
  | clone i =>
    obtain ⟨q, -, h⟩ := Option.map_eq_some_iff.mp h
    cases h
    exact of_add s q rfl
  | change j step =>
    obtain ⟨q, hq, h⟩ := Option.map_eq_some_iff.mp h
    cases h
    exact of_set hq step
  | build i | count i =>
    obtain ⟨q, -, h⟩ := Option.map_eq_some_iff.mp h
    cases h
    exact ⟨rfl, rfl, rfl, fun _ _ h => h⟩
  | limit maxLimit | declare capabilities =>
    cases h
    exact ⟨rfl, rfl, rfl, fun _ _ h => h⟩

/-- **A run changes each query by its own steps.** -/
theorem of_run (h : s.run as = some t) : Carries s as t := by
  induction as generalizing s with
  | nil => cases h; exact nil _
  | cons a as ih =>
    obtain ⟨⟨answer, u⟩, ha, has⟩ := Option.bind_eq_some_iff.mp h
    exact (of_perform ha).append (ih has)

end Carries

/-! ## A query is its lineage replayed -/

variable {p : Provider} {as : List Action} {s : Session}

/-- The run up to an action and the run behind it. -/
theorem run_cons_eq_some {s t : Session} {before after : List Action} {a : Action}
    (h : s.run (before ++ a :: after) = some t) :
    ∃ u answer v, s.run before = some u ∧ u.perform a = some (answer, v) ∧
      v.run after = some t := by
  rw [run_append] at h
  obtain ⟨u, hu, h⟩ := Option.bind_eq_some_iff.mp h
  obtain ⟨⟨answer, v⟩, hv, h⟩ := Option.bind_eq_some_iff.mp h
  exact ⟨u, answer, v, hu, hv, h⟩

/-- The queries of a session are as many as the births. -/
theorem length_queries (h : Session.run ⟨p, []⟩ as = some s) : s.queries.length = births as := by
  simpa using (Carries.of_run h).length

/-- A query that comes last goes by the number of births before it, and only steps on that number
change it. -/
theorem query_of_add {before after : List Action} {u : Session} {q : Query}
    (hu : Session.run ⟨p, []⟩ before = some u) (hs : (u.add q).run after = some s) :
    s.queries[births before]? = some (q.replay (stepsOn (births before) after)) := by
  have hnew : (u.add q).queries[births before]? = some q := by
    rw [← length_queries hu]
    exact List.getElem?_concat_length
  exact (Carries.of_run hs).query _ q hnew

/-- **A query is its lineage replayed.** -/
theorem query_of_descends {i : Nat} {l : Lineage} (hl : Descends p.maxLimit as i l)
    (h : Session.run ⟨p, []⟩ as = some s) : s.queries[i]? = some (l.replay p.dialect) := by
  induction hl generalizing s with
  | created before after table =>
    obtain ⟨u, answer, v, hu, hv, hs⟩ := run_cons_eq_some h
    have hbefore := Carries.of_run hu
    cases hv
    have hquery : u.provider.query table =
        Lineage.replay ⟨table, ceilingAfter p.maxLimit before, []⟩ p.dialect := by
      rw [Provider.query, hbefore.dialect, hbefore.ceiling]
      rfl
    rw [query_of_add hu hs, hquery]
    rfl
  | cloned hl after ih =>
    obtain ⟨u, answer, v, hu, hv, hs⟩ := run_cons_eq_some h
    rw [perform, ih hu] at hv
    cases hv
    rw [query_of_add hu hs, Lineage.replay, Lineage.replay, Query.replay_append]

/-- **Every query has a lineage.** -/
theorem exists_descends (h : Session.run ⟨p, []⟩ as = some s) {i : Nat}
    (hi : i < s.queries.length) : ∃ l, Descends p.maxLimit as i l := by
  induction as using List.reverseRecOn generalizing s i with
  | nil => cases h; simp at hi
  | append_singleton as a ih =>
    obtain ⟨u, answer, v, hu, hv, hs⟩ := run_cons_eq_some h
    cases hs
    by_cases hlt : i < u.queries.length
    · obtain ⟨l, hl⟩ := ih hu hlt
      exact hl.append [a]
    · -- the query is new, so the action has brought it forth
      have hlength := (Carries.of_perform hv).length
      rw [births, List.countP_singleton, length_queries hu] at hlength
      rw [length_queries hu] at hlt
      obtain ⟨ha, rfl⟩ : a.isBirth = true ∧ i = births as := by
        split at hlength
        · next ha => exact ⟨ha, by omega⟩
        · omega
      cases a with
      | create table => exact ⟨_, .created as [] table⟩
      | clone j =>
        obtain ⟨q, hq, -⟩ := Option.map_eq_some_iff.mp hv
        obtain ⟨l, hl⟩ := ih hu (List.getElem?_eq_some_iff.mp hq).1
        exact ⟨_, .cloned hl []⟩
      | _ => cases ha

/-- **Queries are isolated.**  After any run from a provider there is one query for each birth.
Each has a lineage, and whatever lineage it has, building it answers what the lineage answers when
it is replayed on a new query, and changes nothing.  More actions leave a query as it is, unless
they are steps on it. -/
theorem isolated (h : Session.run ⟨p, []⟩ as = some s) :
    s.queries.length = births as ∧
    (∀ i < s.queries.length, ∃ l, Descends p.maxLimit as i l) ∧
    (∀ i l, Descends p.maxLimit as i l →
      s.perform (.build i) = some (some (l.replay p.dialect).build, s) ∧
      s.perform (.count i) = some (some (l.replay p.dialect).buildCount, s)) ∧
    ∀ bs t, s.run bs = some t → ∀ i < s.queries.length, stepsOn i bs = [] →
      t.queries[i]? = s.queries[i]? := by
  refine ⟨length_queries h, fun i hi => exists_descends h hi, fun i l hl => ?_,
    fun bs t ht i hi hsteps => ?_⟩
  · have hquery := query_of_descends hl h
    rw [perform, perform, hquery]
    exact ⟨rfl, rfl⟩
  · have hquery := List.getElem?_eq_getElem hi
    rw [(Carries.of_run ht).query i _ hquery, hsteps, hquery]
    rfl

/-- A query, a copy of it, and a query that is created after the ceiling has been lifted. -/
def forking : List Action :=
  [.create (.plain "t"), .change 0 (.limit 9), .limit none, .clone 0, .change 0 (.column "a"),
    .build 0, .change 1 (.filter (.compare "b" .eq (.single (.ofText "x")))),
    .create (.plain "u"), .change 2 (.limit 9), .change 1 (.orderByText "c" " DESC")]

theorem forking_isolated :
    let p := (Provider.ofDialect .postgresql).withMaxLimit (some 5)
    let copied : Lineage := ⟨.plain "t", some 5, [.limit 9,
      .filter (.compare "b" .eq (.single (.ofText "x"))), .orderByText "c" " DESC"]⟩
    let late : Lineage := ⟨.plain "u", none, [.limit 9]⟩
    ∃ s, Session.run ⟨p, []⟩ forking = some s ∧ s.queries.length = 3 ∧
      s.perform (.build 1) = some (some (copied.replay .postgresql).build, s) ∧
      (∃ r, (copied.replay .postgresql).build.value = .ok r ∧
        r.text = "SELECT * FROM \"t\" WHERE \"b\" = $1 ORDER BY \"c\" DESC LIMIT 5") ∧
      s.perform (.build 2) = some (some (late.replay .postgresql).build, s) ∧
      (∃ r, (late.replay .postgresql).build.value = .ok r ∧
        r.text = "SELECT * FROM \"u\" LIMIT 9") ∧
      ∃ t, s.run [.change 0 (.limit 1), .limit (some 2), .build 1] = some t ∧
        t.queries[1]? = s.queries[1]? := by
  intro p copied late
  have hcopied : Descends p.maxLimit forking 1 copied :=
    .cloned (.created [] [.change 0 (.limit 9), .limit none] (.plain "t")) _
  have hlate : Descends p.maxLimit forking 2 late :=
    .created (forking.take 7) (forking.drop 8) (.plain "u")
  obtain ⟨s, t, hs, ht⟩ : ∃ s t, Session.run ⟨p, []⟩ forking = some s ∧
    s.run [.change 0 (.limit 1), .limit (some 2), .build 1] = some t := ⟨_, _, rfl, rfl⟩
  obtain ⟨hlength, -, hbuild, hkept⟩ := isolated hs
  have hmember : 1 < s.queries.length := by rw [hlength]; decide
  exact ⟨s, hs, hlength, (hbuild 1 copied hcopied).1, ⟨_, rfl, by decide +kernel⟩,
    (hbuild 2 late hlate).1, ⟨_, rfl, by decide +kernel⟩, t, ht, hkept _ t ht 1 hmember rfl⟩

end Session

end SelectQuery
