import SelectQuery.Proofs.Companion
import SelectQuery.Proofs.Session

/-!
# Proofs/Report — what is reported of an outcome

A statement is built in four stages, and each reports on its own: the table and the conditions
(`Query.start_eq`), the orders, which report nothing, the limit (`Query.effectiveLimit_events`), the
page and the finished statement.  So the outcome says what has been reported, and conversely:
nothing of a table without a name, one report of a malformed condition, and of a finished statement
one report with the number of its arguments, behind a warning if the limit was lowered.

Of a run, which changes queries and asks for statements in any order, the reports of finished
statements are the successful answers, one for one (`Session.finished_transcript`).
-/

namespace SelectQuery

/-! ## Reports as they are shown -/

namespace Event

/-- A report as it is shown: how much it matters, its words and its particulars. -/
def shown (e : Event) : String × String × List (String × String) :=
  (e.level.text, e.message, e.fields)

/-- The number of arguments of a statement that is reported as finished. -/
def finished? : Event → Option Nat
  | built _ _ args => some args
  | _ => none

end Event

namespace Condition

/-- The reports of a condition by itself are those of its outcome. -/
theorem statement_events (d : Dialect) (c : Condition) :
    (c.statement d).events = match (c.statement d).value with
      | .ok _ => []
      | .error fault => [.conditionFailed d.name fault] := by
  rw [statement_eq, Draft.statement]
  cases c.draft.fault? <;> rfl

/-- **A condition that is written to a writer** is not reported, failed or not. -/
theorem write_events (d : Dialect) (c : Condition) (w : Writer) :
    ((c.write d).traced w).events = [] := congrArg Traced.events (c.write_writes d w)

end Condition

namespace Query

variable {q : Query} {selection : Writing Unit} {fault : Fault}

/-! ## The stages of a statement -/

/-- The report of a finished statement. -/
def finished (q : Query) (s : Statement) : Event :=
  .built q.dialect.name q.table.name s.args.length

/-- **The warning that a limit is lowered**, if it is above the ceiling. -/
def warning? (q : Query) : Option Event :=
  match q.page.limit, q.ceiling with
  | some limit, some ceiling => if ceiling < limit then some (.clamping limit ceiling) else none
  | _, _ => none

/-- There is a warning exactly if there are a limit and a ceiling below it. -/
theorem warning?_eq_some {e : Event} : q.warning? = some e ↔ ∃ limit ceiling,
    q.page.limit = some limit ∧ q.ceiling = some ceiling ∧ ceiling < limit ∧
      .clamping limit ceiling = e := by
  rw [warning?]
  split
  · next limit ceiling hlimit hceiling => simp [hlimit, hceiling]
  · next hnone =>
    refine ⟨fun h => (nomatch h), ?_⟩
    rintro ⟨limit, ceiling, hlimit, hceiling, -⟩
    exact absurd hceiling (hnone limit ceiling hlimit)

theorem effectiveLimit_events (q : Query) : q.effectiveLimit.events = q.warning?.toList := by
  rw [effectiveLimit, warning?]
  rcases q.page.limit with _ | limit <;> rcases q.ceiling with _ | ceiling <;> try rfl
  dsimp only
  split <;> rfl

/-! ## Rows and count -/

theorem build_of_refused (h : q.fault? = some fault) :
    q.build = ⟨.error fault, q.refusal fault⟩ := by
  rw [build, start_eq (writeColumns_prints q), h]
  exact congrArg (Traced.mk _) (List.append_nil _)

theorem buildCount_of_refused (h : q.fault? = some fault) :
    q.buildCount = ⟨.error fault, q.refusal fault⟩ := by
  rw [buildCount, start_eq (Writing.Prints.push "COUNT(*)"), h]
  exact congrArg (Traced.mk _) (List.append_nil _)

/-- **Of a count that is not refused**, the finished statement is reported. -/
theorem buildCount_of_accepted (h : q.fault? = none) :
    ∃ s, q.buildCount = ⟨.ok s, [q.finished s]⟩ := by
  rw [buildCount, start_eq (Writing.Prints.push "COUNT(*)"), h]
  exact ⟨_, rfl⟩

/-- **Of rows that are not refused**, the finished statement is reported behind a lowered limit. -/
theorem build_events_of_accepted (h : q.fault? = none) :
    q.build.events = q.warning?.toList ++ match q.build.value with
      | .ok s => [q.finished s]
      | .error _ => [] := by
  have hfilter := foldl_apart_ne_empty (q.head_ne_empty q.columnsText) q.filterSection
  rw [build, start_eq (writeColumns_prints q), h, pure_bind, ← effectiveLimit_events]
  dsimp only
  rw [writeOrders_traced hfilter, pure_bind]
  rcases hclause : q.dialect.pageClause
      { limit := q.effectiveLimit.value, offset := q.page.offset } with fault | clause
  · simp only [Traced.events_bind, Traced.value_bind, hclause]
    rfl
  · simp only [Traced.events_bind, Traced.value_bind, hclause]
    rfl

theorem build_of_accepted (h : q.Accepted) :
    (∀ fault, q.dialect.pageClause q.effectivePage = .error fault →
      q.build = ⟨.error fault, q.warning?.toList⟩) ∧
    ∀ clause, q.dialect.pageClause q.effectivePage = .ok clause →
      ∃ s, q.build = ⟨.ok s, q.warning?.toList ++ [q.finished s]⟩ := by
  have hevents := build_events_of_accepted (fault?_eq_none_iff.mpr h)
  constructor
  · intro fault hfault
    have hvalue : q.build.value = .error fault := build_eq_error.mpr (.inr ⟨h, hfault⟩)
    rw [hvalue, List.append_nil] at hevents
    exact Traced.ext hvalue hevents
  · intro clause hclause
    have hvalue := build_eq_ok.mpr ⟨h, clause, hclause, rfl⟩
    rw [hvalue] at hevents
    exact ⟨_, Traced.ext hvalue hevents⟩

end Query

/-! ## Finished statements are successes -/

/-- How many arguments a statement has, if there is one. -/
def argCount? (r : Except Fault Statement) : Option Nat := r.toOption.map fun s => s.args.length

/-- **Answers are reported truly**: the statements that are reported as finished are those that are
answered, one for one, each with the number of its arguments. -/
def Truthful (x : Traced (List (Except Fault Statement))) : Prop :=
  x.events.filterMap Event.finished? = x.value.filterMap argCount?

namespace Truthful

variable {x y : Traced (List (Except Fault Statement))}

theorem pure_nil : Truthful (pure []) := rfl

/-- Answers behind others are reported behind them. -/
theorem append (hx : Truthful x) (hy : Truthful y) :
    Truthful (do let a ← x; let b ← y; return a ++ b) := by
  have hevents : (do let a ← x; let b ← y; return a ++ b : Traced _).events =
      x.events ++ (y.events ++ []) := rfl
  have hvalue : (do let a ← x; let b ← y; return a ++ b : Traced _).value =
      x.value ++ y.value := rfl
  rw [Truthful, hevents, hvalue, List.append_nil, List.filterMap_append, List.filterMap_append, hx,
    hy]

/-- What neither finishes a statement nor answers is reported truly. -/
theorem silent {α : Type} {x : Traced α} (h : ∀ e ∈ x.events, e.finished? = none) :
    Truthful (do let _ ← x; return []) := by
  have hevents : (do let _ ← x; return [] : Traced (List (Except Fault Statement))).events =
      x.events ++ [] := rfl
  rw [Truthful, hevents, List.append_nil, List.filterMap_eq_nil_iff.mpr h]
  rfl

theorem singleton {x : Traced (Except Fault Statement)}
    (h : x.events.filterMap Event.finished? = (argCount? x.value).toList) :
    Truthful (do return [← x]) := by
  have hevents : (do return [← x] : Traced _).events = x.events ++ [] := rfl
  have hvalue : (do return [← x] : Traced _).value = [x.value] := rfl
  rw [Truthful, hevents, hvalue, List.append_nil, h]
  cases h : argCount? x.value <;> simp [h]

end Truthful

namespace Query

/-- A refusal finishes nothing. -/
theorem finished?_refusal (q : Query) (fault : Fault) :
    (q.refusal fault).filterMap Event.finished? = [] := by
  rw [refusal]
  split <;> rfl

/-- A warning finishes nothing. -/
theorem finished?_warning (q : Query) : q.warning?.toList.filterMap Event.finished? = [] := by
  rw [List.filterMap_eq_nil_iff]
  intro e he
  obtain ⟨limit, ceiling, -, -, -, rfl⟩ := warning?_eq_some.mp (Option.mem_toList.mp he)
  rfl

theorem truthful_build (q : Query) : Truthful (do return [← q.build]) := by
  refine .singleton ?_
  cases h : q.fault? with
  | some fault => rw [build_of_refused h, finished?_refusal]; rfl
  | none =>
    rw [build_events_of_accepted h, List.filterMap_append, finished?_warning]
    cases q.build.value <;> rfl

theorem truthful_buildCount (q : Query) : Truthful (do return [← q.buildCount]) := by
  refine .singleton ?_
  cases h : q.fault? with
  | some fault => rw [buildCount_of_refused h, finished?_refusal]; rfl
  | none =>
    obtain ⟨s, hs⟩ := buildCount_of_accepted h
    rw [hs]
    rfl

/-- A step finishes no statement. -/
theorem finished?_after (q : Query) (step : Step) :
    ∀ e ∈ (q.after step).events, e.finished? = none := by
  cases step with
  | orderByText field direction =>
    rw [after, Traced.events_bind, Order.parseLenient]
    cases Order.ofText? direction with
    | some o => intro e he; cases he
    | none =>
      intro e he
      obtain rfl := List.mem_singleton.mp he
      rfl
  | _ => intro e he; cases he

end Query

/-! ## Runs -/

namespace Session

/-- **What an action answers**, with all that is reported on the way: a statement, if it asks for
one.  An action on a query that is not there is none. -/
def answer (s : Session) : Action → Traced (List (Except Fault Statement))
  | .change i step =>
    match s.queries[i]? with
    | some q => do let _ ← q.after step; return []
    | none => return []
  | a =>
    match s.perform a with
    | some (some answer, _) => do return [← answer]
    | _ => return []

/-- The session after an action. -/
def next (s : Session) (a : Action) : Session := ((s.perform a).map Prod.snd).getD s

/-- **The transcript of a run**: the answers in order, with all that is reported on the way. -/
def transcript (s : Session) : List Action → Traced (List (Except Fault Statement))
  | [] => return []
  | a :: as => do
    let answers ← s.answer a
    let rest ← (s.next a).transcript as
    return answers ++ rest

/-- **An action is reported truly.** -/
theorem truthful_answer (s : Session) (a : Action) : Truthful (s.answer a) := by
  cases a with
  | change i step =>
    rw [answer]
    cases s.queries[i]? with
    | some q => exact .silent (q.finished?_after step)
    | none => exact .pure_nil
  | build i =>
    simp only [answer, perform]
    cases s.queries[i]? with
    | some q => exact q.truthful_build
    | none => exact .pure_nil
  | count i =>
    simp only [answer, perform]
    cases s.queries[i]? with
    | some q => exact q.truthful_buildCount
    | none => exact .pure_nil
  | clone i =>
    simp only [answer, perform]
    cases s.queries[i]? <;> exact .pure_nil
  | create | limit | declare => exact .pure_nil

/-- **A run is reported truly.** -/
theorem truthful_transcript (s : Session) (as : List Action) : Truthful (s.transcript as) := by
  induction as generalizing s with
  | nil => exact .pure_nil
  | cons a as ih => exact (s.truthful_answer a).append (ih (s.next a))

end Session

/-! ## Outcomes and reports -/

/-- **What is reported matches the outcome.**  Of rows and count there is no report if the table has
no name, and one of the first malformed condition if there is one; else one of the finished
statement, behind a warning if the limit of rows was lowered, and no such report of rows if the
dialect refuses the page.  There is no query of another kind.  A missing table is one without a
name, but for a dialect that answers a page with that fault.  A condition by itself is reported if
it fails, and written to a writer it never is.  In any run the reports of finished statements are
the successful answers, one for one and in order, with the numbers of their arguments. -/
theorem outcomes_reported :
    (∀ q : Query, q.Nameless →
      q.build = ⟨.error .missingTable, []⟩ ∧ q.buildCount = ⟨.error .missingTable, []⟩) ∧
    (∀ (q : Query) (fault : Fault), ¬q.Nameless → q.Refused fault →
      q.build = ⟨.error fault, [.filterFailed q.dialect.name q.table.name fault]⟩ ∧
      q.buildCount = ⟨.error fault, [.filterFailed q.dialect.name q.table.name fault]⟩) ∧
    (∀ q : Query, q.Accepted →
      (∀ fault, q.dialect.pageClause q.effectivePage = .error fault →
        q.build = ⟨.error fault, q.warning?.toList⟩) ∧
      (∀ clause, q.dialect.pageClause q.effectivePage = .ok clause → ∃ s, q.build =
        ⟨.ok s, q.warning?.toList ++ [.built q.dialect.name q.table.name s.args.length]⟩) ∧
      ∃ s, q.buildCount = ⟨.ok s, [.built q.dialect.name q.table.name s.args.length]⟩) ∧
    (∀ q : Query, q.Accepted ∨ ∃ fault, q.Refused fault) ∧
    (∀ (q : Query) (e : Event), q.warning? = some e ↔ ∃ limit ceiling,
      q.page.limit = some limit ∧ q.ceiling = some ceiling ∧ ceiling < limit ∧
        .clamping limit ceiling = e) ∧
    (∀ q : Query,
      (q.buildCount.value = .error .missingTable ↔ q.Nameless) ∧
      (q.build.value = .error .missingTable ↔
        q.Nameless ∨ q.Accepted ∧ q.dialect.pageClause q.effectivePage = .error .missingTable)) ∧
    (∀ (d : Dialect) (c : Condition),
      ((c.statement d).events = match (c.statement d).value with
        | .ok _ => []
        | .error fault => [.conditionFailed d.name fault]) ∧
      ∀ w : Writer, ((c.write d).traced w).events = []) ∧
    (∀ (s : Session) (as : List Action), let t := s.transcript as
      t.events.filterMap Event.finished? = t.value.filterMap argCount? ∧
      t.events.countP (·.finished?.isSome) = t.value.countP (·.toOption.isSome)) ∧
    (∀ dialect table fault, (Event.filterFailed dialect table fault).shown =
      ("DEBUG", "failed to translate WHERE clause",
        [("dialect", dialect), ("table", table), ("error", fault.message)])) ∧
    (∀ dialect table args, (Event.built dialect table args).shown =
      ("DEBUG", "built query",
        [("dialect", dialect), ("table", table), ("args", toString args)])) ∧
    (∀ dialect fault, (Event.conditionFailed dialect fault).shown =
      ("DEBUG", "condition translation failed",
        [("dialect", dialect), ("error", fault.message)])) ∧
    ∀ limit ceiling : UInt64, (Event.clamping limit ceiling).shown =
      ("WARN", "limit exceeds configured ceiling, clamping",
        [("limit", toString limit.toNat), ("max_limit", toString ceiling.toNat)]) := by
  refine ⟨fun q h => ?_, fun q fault hname h => ?_, fun q h => ?_, fun q => ?_,
    fun q e => Query.warning?_eq_some, fun q => ⟨?_, ?_⟩,
    fun d c => ⟨c.statement_events d, c.write_events d⟩, fun s as => ?_,
    fun _ _ _ => rfl, fun _ _ _ => rfl, fun _ _ => rfl, fun _ _ => rfl⟩
  · have hfault : q.fault? = some .missingTable := Query.fault?_eq_some.mpr (.nameless h)
    have hrefusal : q.refusal .missingTable = [] := if_pos (Query.isEmpty_table_iff.mpr h)
    rw [Query.build_of_refused hfault, Query.buildCount_of_refused hfault, hrefusal]
    exact ⟨rfl, rfl⟩
  · have hfault : q.fault? = some fault := Query.fault?_eq_some.mpr h
    have hrefusal : q.refusal fault = [.filterFailed q.dialect.name q.table.name fault] :=
      if_neg fun he => hname (Query.isEmpty_table_iff.mp he)
    rw [Query.build_of_refused hfault, Query.buildCount_of_refused hfault, hrefusal]
    exact ⟨rfl, rfl⟩
  · obtain ⟨hrefused, hfinished⟩ := Query.build_of_accepted h
    exact ⟨hrefused, hfinished, Query.buildCount_of_accepted (Query.fault?_eq_none_iff.mpr h)⟩
  · cases h : q.fault? with
    | none => exact .inl (Query.fault?_eq_none_iff.mp h)
    | some fault => exact .inr ⟨fault, Query.fault?_eq_some.mp h⟩
  · rw [Query.buildCount_eq_error, Query.refused_missingTable]
  · rw [Query.build_eq_error, Query.refused_missingTable]
  · have htrue : (s.transcript as).events.filterMap Event.finished? = _ := s.truthful_transcript as
    have hcount := congrArg List.length htrue
    rw [List.length_filterMap_eq_countP, List.length_filterMap_eq_countP] at hcount
    simp only [argCount?, Option.isSome_map] at hcount
    exact ⟨htrue, hcount⟩

/-- A run with a lowered limit, a direction that is none, and a query that is refused at last. -/
def reporting : List Action :=
  [.create (.plain "t"), .change 0 (.limit 9), .change 0 (.orderByText "a" "up"), .build 0,
    .change 0 (.filter (.compare "b" .eq (.single (.ofText "x")))), .count 0,
    .change 0 (.filterAny []), .build 0, .create (.within "" "u"), .count 1]

theorem reporting_matched :
    let s : Session := ⟨(Provider.ofDialect .mysql).withMaxLimit (some 5), []⟩
    let t := s.transcript reporting
    let q : Query := { table := .within "s" "t", dialect := .mysql, conditions := [.all []] }
    t.events = [.unrecognizedOrder "up", .clamping 9 5, .built "mysql" "t" 0, .built "mysql" "t" 1,
      .filterFailed "mysql" "t" (.emptyGroup .or)] ∧
    t.events.countP (·.finished?.isSome) = t.value.countP (·.toOption.isSome) ∧
    (¬q.Nameless ∧ q.Refused (.emptyGroup .and) ∧
      q.build = ⟨.error (.emptyGroup .and), [.filterFailed "mysql" "t" (.emptyGroup .and)]⟩) ∧
    ({ q with table := .plain "" }.Nameless ∧
      { q with table := .plain "" }.build = ⟨.error .missingTable, []⟩) ∧
    { q with conditions := [] }.Accepted ∧
      ∃ r, { q with conditions := [] }.build = ⟨.ok r, [.built "mysql" "t" r.args.length]⟩ := by
  intro s t q
  obtain ⟨hnameless, hmalformed, haccepted, -, -, -, -, hrun, -⟩ := outcomes_reported
  have hname : ¬q.Nameless := by simp [q, Query.Nameless, Table.name, Table.schema?]
  have hfirst : q.conditions = [] ++ Condition.all [] :: [] := rfl
  have hrefused : q.Refused (.emptyGroup .and) := .malformed hname hfirst (by simp) rfl
  have hempty : { q with table := .plain "" }.Nameless := .inl rfl
  have hplain : { q with conditions := [] }.Accepted :=
    ⟨hname, fun _ h => absurd h List.not_mem_nil⟩
  have hevents : t.events = [.unrecognizedOrder "up", .clamping 9 5, .built "mysql" "t" 0,
      .built "mysql" "t" 1, .filterFailed "mysql" "t" (.emptyGroup .or)] := by
    decide +kernel
  exact ⟨hevents, (hrun s reporting).2, ⟨hname, hrefused, (hmalformed q _ hname hrefused).1⟩,
    ⟨hempty, (hnameless _ hempty).1⟩, hplain, (haccepted _ hplain).2.1 "" rfl⟩

/-- A limit above its ceiling, on a dialect that refuses every page with this fault. -/
def Query.pageless (fault : Fault) : Query where
  table := .plain "t"
  dialect := {
    name := "nopage"
    quoteName n := "<" ++ n ++ ">"
    placeholder _ := "?"
    pageClause _ := .error fault }
  page := { limit := some 9 }
  ceiling := some 5

/-- **A missing table may be reported**, behind a lowered limit, if it is the dialect that speaks of
one; and where the dialect refuses the page the count is finished all the same, and reported. -/
theorem Query.pageless_reported :
    (pageless .missingTable).build = ⟨.error .missingTable, [.clamping 9 5]⟩ ∧
    (pageless (.unsupported "nopage" "pagination")).build =
      ⟨.error (.unsupported "nopage" "pagination"), [.clamping 9 5]⟩ ∧
    (pageless (.unsupported "nopage" "pagination")).buildCount =
      ⟨.ok ⟨"SELECT COUNT(*) FROM <t>", []⟩, [.built "nopage" "t" 0]⟩ :=
  ⟨rfl, rfl, rfl⟩

end SelectQuery
