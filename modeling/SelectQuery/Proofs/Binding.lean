import SelectQuery.Proofs.Sections

/-!
# Proofs/Binding — values are bound, never written

Two conditions are **alike** if they differ in nothing but the values of their operands, so that
they are the same once every value is replaced by one and the same.  Neither the text of a condition
nor its flaws change by such a replacement.  Hence whatever is built of conditions that are alike
fails with the same fault or has the same text; what differs is bound to the placeholders
(`Query.values_unseen`).
-/

namespace SelectQuery

/-! ## Other values in the same places -/

/-- The operand with its values changed. -/
def Operand.map (f : Value → Value) : Operand → Operand
  | single v => single (f v)
  | list vs => list (vs.map f)

/-- A map of values changes no operand's size. -/
theorem Operand.size_map (f : Value → Value) (x : Operand) : (x.map f).size = x.size := by
  cases x with
  | single v => rfl
  | list vs => exact List.length_map f

/-- The text of a comparison has a placeholder where a value is, whichever it is. -/
theorem comparisonText_map (f : Value → Value) (d : Dialect) (k : Nat) (field : String)
    (op : Operator) (x : Operand) :
    comparisonText d k field op (x.map f) = comparisonText d k field op x := by
  cases x with
  | single v => rfl
  | list vs => rw [Operand.map, comparisonText, comparisonText, List.length_map]

namespace Condition

mutual

/-- The condition with the values of its operands changed. -/
def mapValues (f : Value → Value) : Condition → Condition
  | compare field op x => compare field op (x.map f)
  | group c members => group c (mapValuesAll f members)
  | not inner => not (mapValues f inner)

/-- The conditions with the values of their operands changed. -/
def mapValuesAll (f : Value → Value) : List Condition → List Condition
  | [] => []
  | m :: ms => mapValues f m :: mapValuesAll f ms

end

variable (f : Value → Value) (d : Dialect)

theorem mapValuesAll_eq_map (cs : List Condition) : mapValuesAll f cs = cs.map (mapValues f) := by
  induction cs with
  | nil => rfl
  | cons c cs ih => rw [mapValuesAll, ih, List.map_cons]

mutual

/-- With other values a condition has as many placeholders. -/
theorem placeholders_mapValues : ∀ c : Condition, (c.mapValues f).placeholders = c.placeholders
  | compare _ _ x => x.size_map f
  | group _ members => placeholdersAll_mapValuesAll members
  | not inner => placeholders_mapValues inner

theorem placeholdersAll_mapValuesAll :
    ∀ cs : List Condition, placeholdersAll (mapValuesAll f cs) = placeholdersAll cs
  | [] => rfl
  | c :: cs => by
    rw [mapValuesAll, placeholdersAll, placeholdersAll, placeholders_mapValues c,
      placeholdersAll_mapValuesAll cs]

end

mutual

/-- The values of a condition with other values are the other values. -/
theorem values_mapValues : ∀ c : Condition, (c.mapValues f).values = c.values.map f
  | compare _ _ (.single _) => rfl
  | compare _ _ (.list _) => rfl
  | group _ members => valuesAll_mapValuesAll members
  | not inner => values_mapValues inner

theorem valuesAll_mapValuesAll :
    ∀ cs : List Condition, valuesAll (mapValuesAll f cs) = (valuesAll cs).map f
  | [] => rfl
  | c :: cs => by
    rw [mapValuesAll, valuesAll, valuesAll, values_mapValues c, valuesAll_mapValuesAll cs,
      List.map_append]

end

mutual

/-- One change after another is one change. -/
theorem mapValues_mapValues (g : Value → Value) :
    ∀ c : Condition, (c.mapValues g).mapValues f = c.mapValues (f ∘ g)
  | compare _ _ (.single _) => rfl
  | compare _ _ (.list _) => by simp [mapValues, Operand.map]
  | group _ members => by rw [mapValues, mapValues, mapValues, mapValuesAll_mapValuesAll g members]
  | not inner => by rw [mapValues, mapValues, mapValues, mapValues_mapValues g inner]

theorem mapValuesAll_mapValuesAll (g : Value → Value) :
    ∀ cs : List Condition, mapValuesAll f (mapValuesAll g cs) = mapValuesAll (f ∘ g) cs
  | [] => rfl
  | c :: cs => by
    rw [mapValuesAll, mapValuesAll, mapValuesAll, mapValues_mapValues g c,
      mapValuesAll_mapValuesAll g cs]

end

mutual

/-- **The text does not change with the values.** -/
theorem text_mapValues (k : Nat) : ∀ c : Condition, (c.mapValues f).text d k = c.text d k
  | compare field op x => comparisonText_map f d k field op x
  | group _ members => by rw [mapValues, text, text, texts_mapValuesAll k members]
  | not inner => by rw [mapValues, text, text, text_mapValues k inner]

theorem texts_mapValuesAll (k : Nat) :
    ∀ cs : List Condition, texts d k (mapValuesAll f cs) = texts d k cs
  | [] => rfl
  | c :: cs => by
    rw [mapValuesAll, texts, texts, text_mapValues k c, placeholders_mapValues f c,
      texts_mapValuesAll _ cs]

end

mutual

/-- Its nodes are those of the condition, with other values. -/
theorem nodes_mapValues : ∀ c : Condition, (c.mapValues f).nodes = c.nodes.map (mapValues f)
  | compare _ _ _ => rfl
  | group _ members => by rw [mapValues, nodes, nodes, nodesAll_mapValuesAll members]; rfl
  | not inner => by rw [mapValues, nodes, nodes, nodes_mapValues inner]; rfl

theorem nodesAll_mapValuesAll :
    ∀ cs : List Condition, nodesAll (mapValuesAll f cs) = (nodesAll cs).map (mapValues f)
  | [] => rfl
  | c :: cs => by
    rw [mapValuesAll, nodesAll, nodesAll, nodes_mapValues c, nodesAll_mapValuesAll cs,
      List.map_append]

end

/-- **A flaw does not change with the values.** -/
theorem flaw?_mapValues (c : Condition) : (c.mapValues f).flaw? = c.flaw? := by
  cases c with
  | compare field op x =>
    cases x with
    | single v => rfl
    | list vs => simp [mapValues, Operand.map, flaw?]
  | group c members => simp [mapValues, flaw?, mapValuesAll_eq_map]
  | not inner => rfl

/-- The first flaw among nodes does not change with the values. -/
theorem findSome?_flaw?_map (nodes : List Condition) :
    (nodes.map (mapValues f)).findSome? flaw? = nodes.findSome? flaw? := by
  have hflaw : flaw? ∘ mapValues f = flaw? := funext (flaw?_mapValues f)
  rw [List.findSome?_map, hflaw]

/-! ## The same but for the values -/

/-- The condition with all its values replaced by one and the same. -/
def unbound (c : Condition) : Condition := c.mapValues fun _ => default

/-- **Two conditions are alike** if they differ in nothing but the values of their operands. -/
def Alike (c c' : Condition) : Prop := c.unbound = c'.unbound

end Condition

namespace Query

/-- The query with all values of its conditions replaced by one and the same. -/
def unbound (q : Query) : Query := { q with conditions := q.conditions.map Condition.unbound }

/-- **Two queries are alike** if they differ in nothing but the values of operands. -/
def Alike (q q' : Query) : Prop := q.unbound = q'.unbound

end Query

/-- **The same text with these arguments and with those**, as many of one as of the other; or the
same fault. -/
inductive SameText (vs us : Args) : Except Fault Statement → Except Fault Statement → Prop
  | refused (fault : Fault) : SameText vs us (.error fault) (.error fault)
  | written (text : String) (h : vs.length = us.length) :
    SameText vs us (.ok ⟨text, vs⟩) (.ok ⟨text, us⟩)

namespace Condition

variable {c c' : Condition}

/-- What does not change with the values is the same of conditions that are alike. -/
theorem Alike.congr {β : Type} (h : c.Alike c') (X : Condition → β)
    (hX : ∀ c, X c.unbound = X c) : X c = X c' :=
  (hX c).symm.trans ((congrArg X h).trans (hX c'))

/-- **Conditions that are alike have the same text**, or the same fault. -/
theorem Alike.sameText (h : c.Alike c') (d : Dialect) :
    SameText c.values c'.values (c.statement d).value (c'.statement d).value := by
  have hflaw : c.nodes.findSome? flaw? = c'.nodes.findSome? flaw? :=
    h.congr (fun c => c.nodes.findSome? flaw?) fun c => by
      rw [unbound, nodes_mapValues, findSome?_flaw?_map]
  have htext : c.text d 1 = c'.text d 1 := h.congr (text d 1) (text_mapValues _ d 1)
  have hlength : c.values.length = c'.values.length := by
    rw [length_values, length_values]
    exact h.congr placeholders (placeholders_mapValues _)
  rw [statement_value_eq, statement_value_eq, hflaw, htext]
  cases c'.nodes.findSome? flaw? with
  | some fault => exact .refused fault
  | none => exact .written _ hlength

end Condition

namespace Query

variable {q q' : Query}

/-- **Queries that are alike agree in all that no value changes.** -/
theorem Alike.congr {β : Type} (h : q.Alike q') (X : Query → β)
    (hX : ∀ q, X q.unbound = X q) : X q = X q' :=
  (hX q).symm.trans ((congrArg X h).trans (hX q'))

/-- Without its values a query has its conditions without theirs. -/
theorem conditions_unbound (q : Query) :
    q.unbound.conditions = Condition.mapValuesAll (fun _ => default) q.conditions :=
  (Condition.mapValuesAll_eq_map _ q.conditions).symm

/-- What stands in the way of a statement does not change with the values. -/
theorem fault?_unbound (q : Query) : q.unbound.fault? = q.fault? := by
  rw [fault?, fault?, conditions_unbound, Condition.nodesAll_mapValuesAll,
    Condition.findSome?_flaw?_map]
  rfl

/-- The text of a filter does not depend on its values. -/
theorem filterSection_unbound (q : Query) : q.unbound.filterSection = q.filterSection := by
  have hempty : q.unbound.conditions.isEmpty = q.conditions.isEmpty := List.isEmpty_map
  rw [filterSection, filterSection, hempty, conditions_unbound, Condition.texts_mapValuesAll]
  rfl

/-- The sections do not change with the values. -/
theorem sections_unbound (q : Query) (clause : String) :
    q.unbound.sections clause = q.sections clause := by
  rw [sections, sections, filterSection_unbound]
  rfl

theorem length_valuesAll_unbound (q : Query) :
    (Condition.valuesAll q.unbound.conditions).length =
      (Condition.valuesAll q.conditions).length := by
  rw [Condition.length_valuesAll, Condition.length_valuesAll, conditions_unbound,
    Condition.placeholdersAll_mapValuesAll]

/-- Queries that are alike have as many values. -/
theorem Alike.length_valuesAll (h : q.Alike q') :
    (Condition.valuesAll q.conditions).length = (Condition.valuesAll q'.conditions).length :=
  h.congr (fun q => (Condition.valuesAll q.conditions).length) length_valuesAll_unbound

/-- The counts of queries that are alike have the same text or the same fault. -/
theorem Alike.sameText_buildCount (h : q.Alike q') :
    SameText (Condition.valuesAll q.conditions) (Condition.valuesAll q'.conditions)
      q.buildCount.value q'.buildCount.value := by
  have hsection := h.congr filterSection filterSection_unbound
  have hhead := h.congr (fun q => q.head "COUNT(*)") fun _ => rfl
  rw [buildCount_value_eq_sections, buildCount_value_eq_sections, h.congr fault? fault?_unbound,
    hsection, hhead]
  cases q'.fault? with
  | some fault => exact .refused fault
  | none => exact .written _ h.length_valuesAll

/-- So have their rows, for the dialect is asked for the same page. -/
theorem Alike.sameText_build (h : q.Alike q') :
    SameText (Condition.valuesAll q.conditions) (Condition.valuesAll q'.conditions)
      q.build.value q'.build.value := by
  have hclause := h.congr (fun q => q.dialect.pageClause q.effectivePage) fun _ => rfl
  have hsections (clause : String) :=
    h.congr (fun q => q.sections clause) fun q => q.sections_unbound clause
  have hhead := h.congr (fun q => q.head q.columnsText) fun _ => rfl
  rw [build_value_eq_sections, build_value_eq_sections, h.congr fault? fault?_unbound, hclause]
  cases q'.fault? with
  | some fault => exact .refused fault
  | none =>
    cases q'.dialect.pageClause q'.effectivePage with
    | error fault => exact .refused fault
    | ok clause =>
      dsimp only [Except.map]
      rw [hsections, hhead]
      exact .written _ h.length_valuesAll

/-- **Values never show in a text.**  Statements of queries, counts and conditions that are alike
fail with the same fault, or have the same text and as many arguments: of either its own values. -/
theorem values_unseen :
    (∀ q q' : Query, q.Alike q' →
      SameText (Condition.valuesAll q.conditions) (Condition.valuesAll q'.conditions)
        q.build.value q'.build.value ∧
      SameText (Condition.valuesAll q.conditions) (Condition.valuesAll q'.conditions)
        q.buildCount.value q'.buildCount.value) ∧
    ∀ (d : Dialect) (c c' : Condition), c.Alike c' →
      SameText c.values c'.values (c.statement d).value (c'.statement d).value :=
  ⟨fun _ _ h => ⟨h.sameText_build, h.sameText_buildCount⟩, fun d _ _ h => h.sameText d⟩

end Query

/-- A query for two values. -/
def Query.asking (u v : Value) : Query where
  table := .plain "t"
  dialect := .postgresql
  conditions := [.compare "a" .like (.single u), .not (.compare "b" .member (.list [v, u]))]

/-- A condition on a value. -/
def Condition.asking (v : Value) : Condition := .not (.compare "a" .eq (.single v))

theorem Query.asking_unseen :
    let q := asking (.ofText "' OR '1' = '1") (.ofText "$2")
    let q' := asking (.null .date) (.ofBytes [0])
    q.Alike q' ∧
      (SameText (Condition.valuesAll q.conditions) (Condition.valuesAll q'.conditions)
        q.build.value q'.build.value ∧
      SameText (Condition.valuesAll q.conditions) (Condition.valuesAll q'.conditions)
        q.buildCount.value q'.buildCount.value) ∧
      (∃ s, q'.build.value = .ok s ∧
        s.text = "SELECT * FROM \"t\" WHERE \"a\" LIKE $1 AND NOT (\"b\" IN ($2, $3))") ∧
      SameText [.null .date] [.ofText "?"] ((Condition.asking (.null .date)).statement .mysql).value
        ((Condition.asking (.ofText "?")).statement .mysql).value := by
  intro q q'
  have h : q.Alike q' := rfl
  have hcondition : (Condition.asking (.null .date)).Alike (Condition.asking (.ofText "?")) := rfl
  exact ⟨h, values_unseen.1 q q' h, ⟨_, rfl, by decide +kernel⟩,
    values_unseen.2 .mysql _ _ hcondition⟩

end SelectQuery
