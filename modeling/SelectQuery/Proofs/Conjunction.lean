import SelectQuery.Proofs.Companion

/-!
# Proofs/Conjunction — a filter is a conjunction without its parentheses

The conditions of a query and the members of a group are written by two loops, which come to the
same.  What stands behind `WHERE` is the text of the group of all the conditions but for the
parentheses around it, with the same arguments; and where one of the two has a fault, the other has
the same (`Query.filter_is_conjunction`).

A filter grows at its end.  A further condition is numbered from where those before it end
(`Condition.texts_append`), so nothing that is written already is written otherwise.

The parentheses are all that tells a group from its members, and they always do
(`Query.build_group_ne`): a text with a parenthesis put before it begins otherwise, unless it is
made of nothing but parentheses, and no condition is.
-/

namespace SelectQuery

variable {d : Dialect}

/-! ## Lists of conditions, joined -/

namespace Condition

/-- The texts behind others are numbered from where those end. -/
theorem texts_append (k : Nat) (cs ds : List Condition) :
    texts d k (cs ++ ds) = texts d k cs ++ texts d (k + (valuesAll cs).length) ds := by
  induction cs generalizing k with
  | nil => rfl
  | cons c cs ih =>
    rw [List.cons_append, texts, texts, ih, List.cons_append, valuesAll, List.length_append,
      length_values, Nat.add_assoc]

theorem valuesAll_append (cs ds : List Condition) :
    valuesAll (cs ++ ds) = valuesAll cs ++ valuesAll ds := by
  induction cs with
  | nil => rfl
  | cons c cs ih => rw [List.cons_append, valuesAll, valuesAll, ih, List.append_assoc]

theorem texts_ne_nil {cs : List Condition} (h : cs ≠ []) (k : Nat) : texts d k cs ≠ [] := by
  cases cs with
  | nil => exact absurd rfl h
  | cons c cs => exact List.cons_ne_nil _ _

/-- **The text of a conjunction** behind its parenthesis, its placeholders numbered from `k`. -/
def conjunction (d : Dialect) (k : Nat) (cs : List Condition) : String :=
  Combinator.and.separator.intercalate (texts d k cs)

/-- **A conjunction grows at its end.** -/
theorem conjunction_append {cs ds : List Condition} (hcs : cs ≠ []) (hds : ds ≠ []) (k : Nat) :
    conjunction d k (cs ++ ds) =
      conjunction d k cs ++ " AND " ++ conjunction d (k + (valuesAll cs).length) ds := by
  rw [conjunction, texts_append,
    String.intercalate_append_of_ne_nil (texts_ne_nil hcs k) (texts_ne_nil hds _)]
  rfl

theorem conjunction_singleton (k : Nat) (c : Condition) : conjunction d k [c] = c.text d k :=
  String.intercalate_singleton

/-- **The group of conditions**: their conjunction in parentheses, unless one of them is flawed. -/
theorem statement_all {cs : List Condition} (h : cs ≠ []) :
    ((all cs).statement d).value = match (nodesAll cs).findSome? flaw? with
      | some fault => .error fault
      | none => .ok ⟨"(" ++ conjunction d 1 cs ++ ")", valuesAll cs⟩ := by
  have hnodes : (all cs).nodes.findSome? flaw? = (nodesAll cs).findSome? flaw? := by
    rw [all, nodes, List.findSome?_cons, flaw?, if_neg (by simpa using h)]
  rw [statement_value_eq, hnodes]
  rfl

end Condition

/-! ## The filter of a query -/

namespace Query

variable {q : Query}

/-- **The count of a query with conditions**: the count without them, and behind it their
conjunction, unless one of them is flawed. -/
theorem buildCount_of_conditions (hname : ¬q.Nameless) (hne : q.conditions ≠ []) :
    q.buildCount.value = match (Condition.nodesAll q.conditions).findSome? Condition.flaw? with
      | some fault => .error fault
      | none => .ok ⟨apart (q.head "COUNT(*)")
          ("WHERE " ++ Condition.conjunction q.dialect 1 q.conditions),
          Condition.valuesAll q.conditions⟩ := by
  have hfault : q.fault? = (Condition.nodesAll q.conditions).findSome? Condition.flaw? :=
    if_neg fun h => hname (isEmpty_table_iff.mp h)
  rw [buildCount_value_eq_sections, hfault, filterSection, if_neg (by simpa using hne)]
  rfl

theorem buildCount_of_nil (hname : ¬q.Nameless) :
    { q with conditions := [] }.buildCount.value = .ok ⟨q.head "COUNT(*)", []⟩ := by
  have hname' : ¬{ q with conditions := [] }.Nameless := hname
  have hfault : { q with conditions := [] }.fault? = none :=
    fault?_eq_none_iff.mpr ⟨hname', fun c hc => absurd hc List.not_mem_nil⟩
  rw [buildCount_value_eq_sections, hfault]
  rfl

/-- **A filter is the conjunction of the conditions without its parentheses.**  Both have the same
fault, or both are made, with the same arguments.  A further condition stands behind the others,
numbered on from them, and what is there stays as it is. -/
theorem filter_is_conjunction (hname : ¬q.Nameless) (hne : q.conditions ≠ []) :
    (∃ fault, q.buildCount.value = .error fault ∧
      ((Condition.all q.conditions).statement q.dialect).value = .error fault) ∨
    ∃ (before t : String) (vs : Args),
      ((Condition.all q.conditions).statement q.dialect).value = .ok ⟨"(" ++ t ++ ")", vs⟩ ∧
      { q with conditions := [] }.buildCount.value = .ok ⟨before, []⟩ ∧
      q.buildCount.value = .ok ⟨apart before ("WHERE " ++ t), vs⟩ ∧
      ∀ c : Condition, c.WellFormed → (q.after (.filter c)).value.buildCount.value =
        .ok ⟨apart before ("WHERE " ++ t) ++ " AND " ++ c.text q.dialect (vs.length + 1),
          vs ++ c.values⟩ := by
  rw [buildCount_of_conditions hname hne, Condition.statement_all hne]
  cases hflaw : (Condition.nodesAll q.conditions).findSome? Condition.flaw? with
  | some fault => exact .inl ⟨fault, rfl, rfl⟩
  | none =>
    refine .inr ⟨_, _, _, rfl, buildCount_of_nil hname, rfl, fun c hc => ?_⟩
    let q' : Query := (q.after (.filter c)).value
    have hconditions : q'.conditions = q.conditions ++ [c] := rfl
    have hwell : ∀ x ∈ q'.conditions, x.WellFormed := by
      rw [hconditions]
      exact List.forall_mem_append.mpr
        ⟨Condition.findSome?_flaw?_eq_none.mp hflaw, List.forall_mem_singleton.mpr hc⟩
    have hne' : q'.conditions ≠ [] := List.append_ne_nil_of_left_ne_nil hne [c]
    have hvalues : Condition.valuesAll [c] = c.values := List.append_nil c.values
    rw [buildCount_of_conditions (q := q') hname hne', Condition.findSome?_flaw?_eq_none.mpr hwell,
      hconditions, Condition.valuesAll_append, hvalues,
      Condition.conjunction_append hne (List.cons_ne_nil c []), Condition.conjunction_singleton,
      ← apart_append, ← apart_append]
    simp only [String.append_assoc, Nat.add_comm 1]
    rfl

/-- A condition to come behind those of `bare`. -/
def further : Condition := .compare "c" .like (.single (.ofText "w%"))

/-- The table of `bare` ends in a space, so nothing more sets the filter apart. -/
theorem bare_is_conjunction :
    ¬bare.Nameless ∧ bare.conditions ≠ [] ∧ further.WellFormed ∧ ∃ (before t : String) (vs : Args),
      ((Condition.all bare.conditions).statement bare.dialect).value = .ok ⟨"(" ++ t ++ ")", vs⟩ ∧
      { bare with conditions := [] }.buildCount.value = .ok ⟨before, []⟩ ∧
      bare.buildCount.value = .ok ⟨apart before ("WHERE " ++ t), vs⟩ ∧
      (bare.after (.filter further)).value.buildCount.value =
        .ok ⟨apart before ("WHERE " ++ t) ++ " AND " ++ further.text bare.dialect (vs.length + 1),
          vs ++ further.values⟩ ∧
      ∃ s, (bare.after (.filter further)).value.buildCount.value = .ok s ∧
        s.text = "SELECT COUNT(*) FROM t WHERE a BETWEEN :1 AND :2 AND NOT (b >= :3)" ++
          " AND c LIKE :4" := by
  have hname : ¬bare.Nameless := by simp [Nameless, bare, Table.name, Table.schema?]
  have hne : bare.conditions ≠ [] := List.cons_ne_nil _ _
  have hc : further.WellFormed := .compare (.single rfl _)
  obtain ⟨fault, hfault, -⟩ | ⟨before, t, vs, hall, hnone, hcount, hmore⟩ :=
    filter_is_conjunction hname hne
  · cases hfault
  · exact ⟨hname, hne, hc, before, t, vs, hall, hnone, hcount, hmore further hc, _, rfl,
      by decide +kernel⟩

end Query

/-! ## A group is seen by its parenthesis -/

/-- What begins alike with something put before it is made of nothing else. -/
theorem eq_of_cons_append {α : Type} {a : α} {xs ys zs : List α}
    (h : a :: (xs ++ ys) = xs ++ zs) : ∀ x ∈ xs, x = a := by
  induction xs with
  | nil => exact fun x hx => absurd hx List.not_mem_nil
  | cons x xs ih =>
    obtain ⟨rfl, htail⟩ := List.cons.inj h
    exact List.forall_mem_cons.mpr ⟨rfl, ih htail⟩

/-- Joined texts begin with the first of them. -/
theorem exists_intercalate_cons (s t : String) (ts : List String) :
    ∃ rest, s.intercalate (t :: ts) = t ++ rest := by
  cases ts with
  | nil => exact ⟨"", by rw [String.intercalate_singleton, String.append_empty]⟩
  | cons u us =>
    exact ⟨s ++ s.intercalate (u :: us), by rw [String.intercalate_cons_cons, String.append_assoc]⟩

namespace Condition

variable {c : Condition} {k : Nat}

/-- Some blank stands in the text of every condition. -/
theorem blank_mem_text (h : c.WellFormed) (k : Nat) : ' ' ∈ (c.text d k).toList := by
  induction h generalizing k with
  | @compare field op x _ => cases x <;> simp [text, comparisonText]
  | @group c members hne _ ih =>
    obtain ⟨m, ms, rfl⟩ := List.exists_cons_of_ne_nil hne
    obtain ⟨rest, hrest⟩ := exists_intercalate_cons c.separator (m.text d k)
      (texts d (k + m.placeholders) ms)
    rw [text, texts, hrest]
    simp [ih m List.mem_cons_self k]
  | not => simp [text]

variable {before cs after : List Condition}

/-- Conditions behind others are their conjunction behind some text that is not theirs. -/
theorem exists_conjunction_append (d : Dialect) (k : Nat) (before : List Condition) :
    ∃ s, ∀ ds : List Condition, ds ≠ [] → conjunction d k (before ++ ds) =
      s ++ conjunction d (k + (valuesAll before).length) ds := by
  by_cases hbefore : before = []
  · subst hbefore
    exact ⟨"", fun ds _ => String.empty_append.symm⟩
  · exact ⟨conjunction d k before ++ " AND ", fun ds hds => conjunction_append hbefore hds k⟩

/-- **Conditions in a group are not written like conditions without one**, whatever stands before
and behind. -/
theorem conjunction_group_ne (hne : cs ≠ []) (hwell : ∀ m ∈ cs, m.WellFormed) (c : Combinator)
    (r r' : String) : conjunction d k (before ++ group c cs :: after) ++ r ≠
      conjunction d k (before ++ (cs ++ after)) ++ r' := by
  obtain ⟨m, ms, rfl⟩ := List.exists_cons_of_ne_nil hne
  obtain ⟨s, hs⟩ := exists_conjunction_append d k before
  rw [hs (group c (m :: ms) :: after) (List.cons_ne_nil _ _),
    hs (m :: ms ++ after) (List.cons_ne_nil _ _)]
  generalize k + (valuesAll before).length = k
  -- both go on with the first member, one of them behind a parenthesis
  obtain ⟨rest, hrest⟩ := exists_intercalate_cons c.separator (m.text d k)
    (texts d (k + m.placeholders) ms)
  obtain ⟨more, hmore⟩ := exists_intercalate_cons Combinator.and.separator
    ((group c (m :: ms)).text d k) (texts d (k + (group c (m :: ms)).placeholders) after)
  obtain ⟨more', hmore'⟩ := exists_intercalate_cons Combinator.and.separator (m.text d k)
    (texts d (k + m.placeholders) (ms ++ after))
  intro h
  rw [List.cons_append, conjunction, conjunction, texts, texts, hmore, hmore', text, texts,
    hrest] at h
  have hchars : '(' :: ((m.text d k).toList ++ (rest ++ ")" ++ more ++ r).toList) =
      (m.text d k).toList ++ (more' ++ r').toList := by
    simpa [← String.toList_inj] using h
  have hblank := eq_of_cons_append hchars ' ' (blank_mem_text (hwell m List.mem_cons_self) k)
  exact absurd hblank (by decide)

end Condition

namespace Query

variable {q : Query} {before cs after : List Condition} {c : Combinator} {s : Statement}

/-- Behind a head and a keyword stands the conjunction of the conditions. -/
theorem exists_foldl_filterSection (hne : q.conditions ≠ []) (head : String) (ts : List String) :
    ∃ rest, (q.filterSection ++ ts).foldl apart head =
      apart head "WHERE " ++ (Condition.conjunction q.dialect 1 q.conditions ++ rest) := by
  obtain ⟨rest, hrest⟩ := foldl_apart_eq_append
    (apart head ("WHERE " ++ Condition.conjunction q.dialect 1 q.conditions)) ts
  refine ⟨rest, ?_⟩
  rw [← String.append_assoc, ← apart_append, ← hrest, filterSection, if_neg (by simpa using hne)]
  rfl

/-- Behind one head a group of conditions and these conditions make different texts. -/
theorem foldl_filterSection_ne (hc : q.conditions = before ++ .group c cs :: after)
    (hwell : ∀ x ∈ q.conditions, x.WellFormed) (head : String) (ts ts' : List String) :
    (q.filterSection ++ ts).foldl apart head ≠
      ({ q with conditions := before ++ (cs ++ after) }.filterSection ++ ts').foldl apart head := by
  have hgroup : (Condition.group c cs).WellFormed := hwell _ (by simp [hc])
  cases hgroup with
  | group hne hmembers =>
    obtain ⟨rest, hrest⟩ := exists_foldl_filterSection (q := q) (by simp [hc]) head ts
    obtain ⟨rest', hrest'⟩ := exists_foldl_filterSection
      (q := { q with conditions := before ++ (cs ++ after) }) (by simp [hne]) head ts'
    rw [hrest, hrest', hc]
    intro h
    exact Condition.conjunction_group_ne hne hmembers c rest rest' ((String.append_right_inj _).mp h)

/-- **A group of conditions is one condition**: no statement is made of the group and of its members
without it. -/
theorem build_group_ne (hc : q.conditions = before ++ .group c cs :: after)
    (h : q.build.value = .ok s) :
    { q with conditions := before ++ (cs ++ after) }.build.value ≠ .ok s := by
  intro h'
  obtain ⟨⟨-, hwell⟩, clause, -, rfl⟩ := build_eq_ok.mp h
  obtain ⟨-, clause', -, htext⟩ := build_eq_ok.mp h'
  rw [sections, List.append_assoc, sections, List.append_assoc] at htext
  exact foldl_filterSection_ne hc hwell _ _ _ (Statement.mk.inj htext).1.symm

theorem buildCount_group_ne (hc : q.conditions = before ++ .group c cs :: after)
    (h : q.buildCount.value = .ok s) :
    { q with conditions := before ++ (cs ++ after) }.buildCount.value ≠ .ok s := by
  intro h'
  obtain ⟨⟨-, hwell⟩, rfl⟩ := buildCount_eq_ok.mp h
  obtain ⟨-, htext⟩ := buildCount_eq_ok.mp h'
  have hcount (q : Query) : (q.filterSection ++ []).foldl apart (q.head "COUNT(*)") =
      "SELECT COUNT(*) FROM " ++ q.scope := by
    rw [List.append_nil, foldl_apart_head]
    rfl
  rw [← hcount, ← hcount] at htext
  exact foldl_filterSection_ne hc hwell _ _ _ (Statement.mk.inj htext).1.symm

end Query

end SelectQuery
