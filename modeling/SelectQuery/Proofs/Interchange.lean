import SelectQuery.Proofs.Conjunction
import SelectQuery.Proofs.History

/-!
# Proofs/Interchange — steps of different kinds change places

Each step is about one **part** of a query (`Step.part`), says nothing of the others and looks at
none.  So a query is the same after any two histories with the same steps about each part, however
these are mixed (`Query.replay_congr_of_parts`), and what counts of the steps about a part is what
`Query.replay_congr` asks for: all that is added, in order, or the last that is set.

A group is one condition to a history and not so many as it has members: by
`Query.build_group_ne` the statements tell the two apart.
-/

namespace SelectQuery

namespace Step

variable {α : Type}

/-- The parts of a query that steps change. -/
inductive Part where
  | columns
  | conditions
  | orders
  | limit
  | offset
  | ceiling
  deriving DecidableEq, Repr

/-- The part that a step is about. -/
def part : Step → Part
  | select _ | column _ => .columns
  | filter _ | filterAll _ | filterAny _ => .conditions
  | orderBy .. | orderByText .. => .orders
  | limit _ => .limit
  | offset _ => .offset
  | ceiling _ => .ceiling

/-- The step says nothing of a part. -/
def IsSilent (step : Step) : Part → Prop
  | .columns => step.columns = []
  | .conditions => step.condition? = none
  | .orders => step.order? = none
  | .limit => step.limit? = none
  | .offset => step.offset? = none
  | .ceiling => step.ceiling? = none

/-- **A step says nothing of other parts than its own.** -/
theorem isSilent_of_part_ne {step : Step} {p : Part} (h : step.part ≠ p) : step.IsSilent p := by
  cases step <;> cases p <;> first | rfl | exact absurd rfl h

/-- What is said of a part is said by the steps about it. -/
theorem filterMap_congr_of_part {f : Step → Option α} {p : Part} {steps steps' : List Step}
    (hf : ∀ step, step.IsSilent p → f step = none)
    (h : steps.filter (·.part = p) = steps'.filter (·.part = p)) :
    steps.filterMap f = steps'.filterMap f := by
  have hsilent (step : Step) (hp : decide (step.part = p) = false) : f step = none :=
    hf step (isSilent_of_part_ne (of_decide_eq_false hp))
  rw [← filterMap_filter hsilent steps, h, filterMap_filter hsilent steps']

/-- So are the columns. -/
theorem flatMap_columns_congr {steps steps' : List Step}
    (h : steps.filter (·.part = .columns) = steps'.filter (·.part = .columns)) :
    steps.flatMap columns = steps'.flatMap columns := by
  have hsilent (step : Step) (hp : decide (step.part = .columns) = false) : step.columns = [] :=
    isSilent_of_part_ne (p := .columns) (of_decide_eq_false hp)
  rw [← flatMap_filter hsilent steps, h, flatMap_filter hsilent steps']

/-- The step that adds one condition, made of others. -/
def grouping : Combinator → List Condition → Step
  | .and, cs => filterAll cs
  | .or, cs => filterAny cs

theorem part_grouping (c : Combinator) (cs : List Condition) :
    (grouping c cs).part = .conditions := by cases c <;> rfl

theorem condition?_grouping (c : Combinator) (cs : List Condition) :
    (grouping c cs).condition? = some (.group c cs) := by cases c <;> rfl

end Step

namespace Query

variable {steps steps' : List Step}

/-- Histories with the same steps about all parts but the conditions differ in the conditions
alone. -/
theorem replay_eq_of_parts (q : Query)
    (h : ∀ p ≠ .conditions, steps.filter (·.part = p) = steps'.filter (·.part = p)) :
    q.replay steps' =
      { q.replay steps with conditions := q.conditions ++ steps'.filterMap Step.condition? } := by
  have hsaid {α : Type} {f : Step → Option α} (p : Step.Part) (hp : p ≠ .conditions)
      (hf : ∀ step, step.IsSilent p → f step = none) : steps'.filterMap f = steps.filterMap f :=
    Step.filterMap_congr_of_part hf (h p hp).symm
  have horders := hsaid (f := Step.order?) .orders (by decide) fun _ h => h
  have hlimit := hsaid (f := Step.limit?) .limit (by decide) fun _ h => h
  have hoffset := hsaid (f := Step.offset?) .offset (by decide) fun _ h => h
  have hceiling := hsaid (f := Step.ceiling?) .ceiling (by decide) fun _ h => h
  rw [replay_eq q steps', Step.flatMap_columns_congr (h .columns (by decide)).symm, Step.last?,
    Step.last?, Step.last?, horders, hlimit, hoffset, hceiling, replay_eq q steps]
  rfl

/-- **Histories with the same steps about each part are one history**, however these are mixed. -/
theorem replay_congr_of_parts (q : Query)
    (h : ∀ p, steps.filter (·.part = p) = steps'.filter (·.part = p)) :
    q.replay steps = q.replay steps' := by
  have hconditions : steps'.filterMap Step.condition? = steps.filterMap Step.condition? :=
    Step.filterMap_congr_of_part (p := .conditions) (fun _ h => h) (h .conditions).symm
  rw [q.replay_eq_of_parts fun p _ => h p, hconditions, replay_eq]

/-- The members of a group, added one by one, do no more than take the place of the group. -/
theorem replay_members (q : Query) (before after : List Step) (c : Combinator)
    (cs : List Condition) : q.replay (before ++ (cs.map .filter ++ after)) =
      { q.replay (before ++ .grouping c cs :: after) with
        conditions := q.conditions ++ before.filterMap Step.condition? ++
          (cs ++ after.filterMap Step.condition?) } := by
  have hmembers : (cs.map Step.filter).filterMap Step.condition? = cs := by
    rw [List.filterMap_map]
    exact List.filterMap_some
  have hothers : ∀ p ≠ .conditions, (before ++ .grouping c cs :: after).filter (·.part = p) =
      (before ++ (cs.map Step.filter ++ after)).filter (·.part = p) := by
    intro p hp
    have hnone : (cs.map Step.filter).filter (·.part = p) = [] := by
      simp [List.filter_eq_nil_iff, Step.part, hp.symm]
    have hgroup : (Step.grouping c cs).part ≠ p := Step.part_grouping c cs ▸ hp.symm
    simp only [List.filter_append, List.filter_cons, hgroup, hnone, decide_false,
      Bool.false_eq_true, if_false, List.nil_append]
  rw [q.replay_eq_of_parts hothers, List.filterMap_append, List.filterMap_append, hmembers,
    List.append_assoc]

/-- **Steps of different kinds change places.**  Histories that agree in the columns, conditions and
orders that they add, and in the last limit, offset and ceiling that they set, have one pair of
statements; so have those with the same steps about each part.  But a step that adds a group is
never as good as steps that add its members: no statement is made of both. -/
theorem kinds_change_places (q : Query) :
    (∀ steps steps' : List Step,
      steps.flatMap Step.columns = steps'.flatMap Step.columns →
      steps.filterMap Step.condition? = steps'.filterMap Step.condition? →
      steps.filterMap Step.order? = steps'.filterMap Step.order? →
      Step.last? Step.limit? steps = Step.last? Step.limit? steps' →
      Step.last? Step.offset? steps = Step.last? Step.offset? steps' →
      Step.last? Step.ceiling? steps = Step.last? Step.ceiling? steps' →
      (q.replay steps).build = (q.replay steps').build ∧
        (q.replay steps).buildCount = (q.replay steps').buildCount) ∧
    (∀ steps steps' : List Step,
      (∀ p, steps.filter (·.part = p) = steps'.filter (·.part = p)) →
      (q.replay steps).build = (q.replay steps').build ∧
        (q.replay steps).buildCount = (q.replay steps').buildCount) ∧
    ∀ (before after : List Step) (c : Combinator) (cs : List Condition) (s : Statement),
      let grouped := q.replay (before ++ .grouping c cs :: after)
      let members := q.replay (before ++ (cs.map .filter ++ after))
      (grouped.build.value = .ok s → members.build.value ≠ .ok s) ∧
        (grouped.buildCount.value = .ok s → members.buildCount.value ≠ .ok s) := by
  refine ⟨fun steps steps' hcolumns hconditions horders hlimit hoffset hceiling => ?_,
    fun steps steps' hparts => ?_, fun before after c cs s => ?_⟩
  · rw [q.replay_congr hcolumns hconditions horders hlimit hoffset hceiling]
    exact ⟨rfl, rfl⟩
  · rw [q.replay_congr_of_parts hparts]
    exact ⟨rfl, rfl⟩
  · intro grouped members
    have hgrouped : grouped.conditions = q.conditions ++ before.filterMap Step.condition? ++
        .group c cs :: after.filterMap Step.condition? := by
      rw [show grouped = q.replay (before ++ .grouping c cs :: after) from rfl, replay_eq]
      simp [Step.condition?_grouping]
    rw [show members = _ from q.replay_members before after c cs]
    exact ⟨build_group_ne hgrouped, buildCount_group_ne hgrouped⟩

/-- Two conditions for a group. -/
def alternatives : List Condition :=
  [.compare "a" .lt (.single (.ofText "x")), .compare "b" .eq (.single (.ofText "y"))]

/-- Steps about all parts of a query, mixed. -/
def scattered : List Step :=
  [.limit 5, .column "a", .grouping .or alternatives, .orderByText "c" " Desc", .offset 2,
    .ceiling (some 4), .select ["b", "c"], .limit 9]

/-- The same history, part by part. -/
def gathered : List Step :=
  [.select ["a", "b"], .column "c", .filterAny alternatives, .orderBy "c" .desc, .limit 9,
    .offset 2, .ceiling (some 4)]

/-- The history with two conditions instead of the group. -/
def ungrouped : List Step :=
  [.limit 5, .column "a"] ++ (alternatives.map .filter ++ scattered.drop 3)

theorem scattered_change_places :
    let q : Query := { table := .plain "t", dialect := .postgresql }
    ((q.replay scattered).build = (q.replay gathered).build ∧
      (q.replay scattered).buildCount = (q.replay gathered).buildCount) ∧
    ((q.replay gathered).build = (q.replay (gathered.drop 3 ++ gathered.take 3)).build ∧
      (q.replay gathered).buildCount =
        (q.replay (gathered.drop 3 ++ gathered.take 3)).buildCount) ∧
    ∃ s, (q.replay scattered).build.value = .ok s ∧
      s.text = "SELECT \"a\", \"b\", \"c\" FROM \"t\" WHERE (\"a\" < $1 OR \"b\" = $2)" ++
        " ORDER BY \"c\" DESC LIMIT 4 OFFSET 2" ∧
      (q.replay ungrouped).build.value ≠ .ok s := by
  intro q
  obtain ⟨hsame, hparts, hgroup⟩ := kinds_change_places q
  have horders : scattered.filterMap Step.order? = gathered.filterMap Step.order? := by
    decide +kernel
  exact ⟨hsame scattered gathered rfl rfl horders rfl rfl rfl,
    hparts gathered _ (fun p => by cases p <;> rfl), _, rfl, by decide +kernel,
    (hgroup [.limit 5, .column "a"] (scattered.drop 3) .or alternatives _).1 rfl⟩

end Query

end SelectQuery
