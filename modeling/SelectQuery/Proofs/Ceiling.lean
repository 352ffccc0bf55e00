import SelectQuery.Proofs.Companion
import SelectQuery.Proofs.History

/-!
# Proofs/Ceiling — a ceiling is a limit on limits

A query with a ceiling is built as the query without it whose limit is lowered, and a query without
a limit gets none from its ceiling (`Query.build_lowered`).  The ceiling is looked at in one place,
where the dialect is asked for the clause of a page, so a query keeps the limit that it was given
and the dialect never sees one above the ceiling: what it would say of other pages makes no
difference (`Query.build_withPageClause`).
-/

namespace SelectQuery

/-! ## A limit under a ceiling -/

/-- The smaller of ceiling and limit if there are both, and the limit if not. -/
def limitUnder : Option UInt64 → Option UInt64 → Option UInt64
  | some ceiling, some limit => some (min limit ceiling)
  | _, limit => limit

theorem isNone_limitUnder (ceiling limit : Option UInt64) :
    (limitUnder ceiling limit).isNone = limit.isNone := by
  cases ceiling <;> cases limit <;> rfl

theorem limitUnder_le {ceiling n : UInt64} {limit : Option UInt64}
    (h : limitUnder (some ceiling) limit = some n) : n ≤ ceiling := by
  cases limit with
  | none => cases h
  | some limit =>
    obtain rfl := Option.some.inj h
    exact Std.min_le_right

namespace Query

variable {q : Query}

/-- The query without its ceiling, and with its limit under it. -/
def lowered (q : Query) : Query :=
  { q with page := { q.page with limit := limitUnder q.ceiling q.page.limit }, ceiling := none }

theorem effectiveLimit_value (q : Query) :
    q.effectiveLimit.value = limitUnder q.ceiling q.page.limit := by
  rw [effectiveLimit, limitUnder.eq_def]
  cases q.page.limit <;> cases q.ceiling
  case some.some limit ceiling =>
    dsimp only
    rw [Std.min_eq_if]
    split
    · next hlt => rw [if_neg (UInt64.not_le.mpr hlt)]; rfl
    · next hle => rw [if_pos (UInt64.not_lt.mp hle)]; rfl
  all_goals rfl

/-- Nothing is lowered if the limit is not above the ceiling. -/
theorem effectiveLimit_of_le
    (h : ∀ limit ceiling, q.page.limit = some limit → q.ceiling = some ceiling → limit ≤ ceiling) :
    q.effectiveLimit = pure q.page.limit := by
  rw [effectiveLimit]
  split
  · next limit ceiling hlimit hceiling =>
    rw [if_neg (UInt64.not_lt.mpr (h limit ceiling hlimit hceiling)), hlimit]
  · rfl

/-- **The ceiling is taken into the limit.** -/
theorem build_lowered (q : Query) : q.lowered.build.value = q.build.value := by
  have hpage : q.lowered.effectivePage = q.effectivePage := by
    rw [effectivePage, effectivePage, effectiveLimit_value, effectiveLimit_value]
    rfl
  have hempty : q.lowered.page.isEmpty = q.page.isEmpty := by
    simp only [Page.isEmpty, lowered, isNone_limitUnder]
  have horders : q.lowered.orderSection = q.orderSection := by
    rw [orderSection, hempty, orderSection]
    rfl
  have hsections : q.lowered.sections = q.sections := by
    funext clause
    rw [sections, horders, sections]
    rfl
  rw [build_value_eq_sections, build_value_eq_sections, hpage, hsections]
  rfl

/-! ## What the dialect is asked -/

/-- The query on the dialect that asks for pages in other words. -/
def withPageClause (q : Query) (clause : Page → Except Fault String) : Query :=
  { q with dialect := { q.dialect with pageClause := clause } }

end Query

/-- A condition is written with the names and placeholders of the dialect alone. -/
theorem Condition.write_congr {d e : Dialect} (hn : d.quoteName = e.quoteName)
    (hp : d.placeholder = e.placeholder) : Condition.write d = Condition.write e := by
  have hput : Writer.put d = Writer.put e := by
    funext w p
    cases p <;> simp [Writer.put, Writer.name, Writer.value, hn, hp]
  funext c w
  exact (c.write_writes d w).trans (by rw [Writer.putAll, hput]; exact (c.write_writes e w).symm)

namespace Query

variable {q : Query} {clause : Page → Except Fault String}

theorem start_withPageClause (q : Query) (clause : Page → Except Fault String)
    (selection : Writing Unit) :
    (q.withPageClause clause).start selection = q.start selection := by
  have hfilter : (q.withPageClause clause).writeFilter = q.writeFilter := by
    have hwrite : Condition.write (q.withPageClause clause).dialect = Condition.write q.dialect :=
      Condition.write_congr rfl rfl
    rw [writeFilter, hwrite, writeFilter]
    rfl
  rw [start, writeStart, hfilter, start]
  rfl

/-- **The dialect is asked for one page**: what it would say of others makes no difference. -/
theorem build_withPageClause (h : clause q.effectivePage = q.dialect.pageClause q.effectivePage) :
    (q.withPageClause clause).build = q.build := by
  have hstart : (q.withPageClause clause).start (q.withPageClause clause).writeColumns =
      q.start q.writeColumns := start_withPageClause q clause _
  rw [build, hstart, build]
  refine Traced.bind_congr ?_
  cases (q.start q.writeColumns).value with
  | error fault => rfl
  | ok w =>
    -- the orders come first, and then the limit, of which the page is made
    refine Traced.bind_congr (Traced.bind_congr ?_)
    have hclause : (q.withPageClause clause).dialect.pageClause
        (q.withPageClause clause).effectivePage = q.dialect.pageClause q.effectivePage := h
    rw [effectivePage] at hclause
    rw [hclause]
    rfl

/-! ## Ceilings of providers -/

theorem effectivePage_eq (q : Query) :
    q.effectivePage = ⟨limitUnder q.ceiling q.page.limit, q.page.offset⟩ := by
  rw [effectivePage, effectiveLimit_value]

/-- A query that a provider hands out has the page that its steps ask for last. -/
theorem page_replay_query (p : Provider) (table : Table) (steps : List Step) :
    ((p.query table).replay steps).page =
      ⟨Step.last? Step.limit? steps, Step.last? Step.offset? steps⟩ := by
  rw [replay_eq]
  simp only [Provider.query, Option.or_none]

/-- Steps that set no ceiling leave the one that is there. -/
theorem ceiling_replay {steps : List Step} (h : ∀ step ∈ steps, step.ceiling? = none) :
    (q.replay steps).ceiling = q.ceiling := by
  rw [replay_eq, Step.last?_eq_none.mpr h]
  rfl

/-- **The page that the dialect is asked for**: the last limit under the ceiling of the provider,
behind the last offset. -/
theorem effectivePage_replay_query {p : Provider} {steps : List Step}
    (h : ∀ step ∈ steps, step.ceiling? = none) (table : Table) :
    ((p.query table).replay steps).effectivePage =
      ⟨limitUnder p.maxLimit (Step.last? Step.limit? steps), Step.last? Step.offset? steps⟩ := by
  rw [effectivePage_eq, ceiling_replay h, page_replay_query]
  rfl

/-- A query is built from its ceiling through its effective limit only. -/
theorem build_ceiling_congr {c c' : Option UInt64}
    (h : { q with ceiling := c }.effectiveLimit = { q with ceiling := c' }.effectiveLimit) :
    { q with ceiling := c }.build = { q with ceiling := c' }.build := by
  rw [build, h, build]
  rfl

/-- A ceiling that is not below the limit may be raised. -/
theorem build_raised {c c' : UInt64} (hlimit : ∀ n, q.page.limit = some n → n ≤ c)
    (hc : c ≤ c') :
    { q with ceiling := some c' }.build = { q with ceiling := some c }.build := by
  have hkept {ceiling : UInt64} (h : c ≤ ceiling) :
      { q with ceiling := some ceiling }.effectiveLimit = pure q.page.limit := by
    refine effectiveLimit_of_le fun n m hn hm => ?_
    obtain rfl := Option.some.inj hm
    exact UInt64.le_trans (hlimit n hn) h
  exact build_ceiling_congr ((hkept hc).trans (hkept (UInt64.le_refl c)).symm)

/-- **A ceiling lowers limits and does nothing else.**  A query is built as the one without a
ceiling whose limit is lowered.  So whatever steps other than ceilings are applied to a query of a
provider with a ceiling, the query keeps the last limit as it was given, while the one page that the
dialect is asked for has none or one under the ceiling.  Steps about the page count by the last of
each kind, wherever they stand, and a ceiling above the limit may be raised. -/
theorem ceiling_lowers_limits :
    (∀ q : Query, q.build.value = q.lowered.build.value) ∧
    (∀ (p : Provider) (ceiling : UInt64) (table : Table) (steps : List Step),
      p.maxLimit = some ceiling → (∀ step ∈ steps, step.ceiling? = none) →
      let q := (p.query table).replay steps
      let page : Page :=
        ⟨limitUnder (some ceiling) (Step.last? Step.limit? steps), Step.last? Step.offset? steps⟩
      q.page = ⟨Step.last? Step.limit? steps, Step.last? Step.offset? steps⟩ ∧
      (∀ n, page.limit = some n → n ≤ ceiling) ∧
      (∀ s, q.build.value = .ok s → ∃ clause, p.dialect.pageClause page = .ok clause ∧
        s.text = (q.sections clause).foldl apart (q.head q.columnsText)) ∧
      ∀ clause, clause page = p.dialect.pageClause page →
        (q.withPageClause clause).build = q.build) ∧
    (∀ (q : Query) (steps steps' : List Step),
      steps.filter (!·.isPaging) = steps'.filter (!·.isPaging) →
      Step.last? Step.limit? steps = Step.last? Step.limit? steps' →
      Step.last? Step.offset? steps = Step.last? Step.offset? steps' →
      Step.last? Step.ceiling? steps = Step.last? Step.ceiling? steps' →
      q.replay steps = q.replay steps') ∧
    (∀ (q : Query) (c c' : UInt64), (∀ n, q.page.limit = some n → n ≤ c) → c ≤ c' →
      { q with ceiling := some c' }.build = { q with ceiling := some c }.build) := by
  refine ⟨fun q => q.build_lowered.symm, fun p ceiling table steps hp hsteps => ?_,
    fun q _ _ => q.replay_congr_of_paging, fun q c c' => build_raised⟩
  intro q page
  have hpage : q.effectivePage = page := by
    rw [effectivePage_replay_query hsteps, hp]
  have hdialect : q.dialect = p.dialect := by
    rw [show q = (p.query table).replay steps from rfl, replay_eq]
    rfl
  refine ⟨page_replay_query p table steps, fun n => limitUnder_le, fun s hs => ?_,
    fun clause hclause => build_withPageClause (by rw [hpage, hdialect, hclause])⟩
  obtain ⟨-, clause, hclause, rfl⟩ := build_eq_ok.mp hs
  rw [hdialect, hpage] at hclause
  exact ⟨clause, hclause, rfl⟩

/-- Steps that ask for a page, with a limit above ten in the end. -/
def pagedLast : List Step := [.limit 5, .column "a", .offset 3, .limit 25]

/-- The same page and the same column in another order. -/
def pagedFirst : List Step := [.offset 3, .limit 7, .limit 25, .column "a"]

theorem paged_lowered :
    let p : Provider := (Provider.ofDialect .sqlserver).withMaxLimit (some 10)
    let q := (p.query (.plain "t")).replay pagedLast
    q.build.value = q.lowered.build.value ∧ q.page = ⟨some 25, some 3⟩ ∧
      (∃ s, q.build.value = .ok s ∧ ∃ clause,
        Dialect.sqlserver.pageClause ⟨some 10, some 3⟩ = .ok clause ∧
        s.text = (q.sections clause).foldl apart (q.head q.columnsText)) ∧
      q = (p.query (.plain "t")).replay pagedFirst ∧
      { q with ceiling := some 30 }.build = { q with ceiling := some 25 }.build := by
  intro p q
  obtain ⟨hlowered, hpage, horder, hraised⟩ := ceiling_lowers_limits
  obtain ⟨hkept, -, hclause, -⟩ :=
    hpage p 10 (.plain "t") pagedLast rfl (by simp [pagedLast, Step.ceiling?])
  exact ⟨hlowered q, hkept, ⟨_, rfl, hclause _ rfl⟩,
    horder _ pagedLast pagedFirst rfl rfl rfl rfl,
    hraised q 25 30 (fun n hn => by cases hn; decide) (by decide)⟩

end Query

end SelectQuery
