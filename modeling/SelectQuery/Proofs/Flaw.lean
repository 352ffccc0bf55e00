import SelectQuery.Proofs.Rendering

/-!
# Proofs/Flaw — the first flaw decides

A node of a condition is **flawed** if it has no text of its own: an operand does not fit its
operator, or a group has no members.  Writing comes upon the nodes depth first and from left to
right, and stops at the first that is flawed.  `Condition.visits` says what has been written by the
time a node is come upon; `Condition.write_first_flaw` says that the fault is that of the first
flawed node, and that the writer is left as it was when that node was reached.
-/

namespace SelectQuery

/-! ## Nodes and their flaws -/

namespace Condition

/-- **What is wrong with the node itself**, whatever stands below it. -/
def flaw? : Condition → Option Fault
  | compare field op (.single _) =>
    if op.takesSingle then none else some (.operandMismatch field op .list)
  | compare field op (.list vs) =>
    if op.takesSingle then some (.operandMismatch field op .single)
    else if op = .between then
      if vs.length = 2 then none else some (.rangeArity field vs.length)
    else if vs.isEmpty then some (.emptyMembership field) else none
  | group c members => if members.isEmpty then some (.emptyGroup c) else none
  | not _ => none

mutual

/-- The nodes of a condition, depth first and from left to right. -/
def nodes : Condition → List Condition
  | compare field op x => [compare field op x]
  | group c members => group c members :: nodesAll members
  | not inner => not inner :: nodes inner

/-- The nodes of conditions, depth first and from left to right. -/
def nodesAll : List Condition → List Condition
  | [] => []
  | m :: ms => nodes m ++ nodesAll ms

end

/-- A comparison has a text, or nothing of it is written. -/
theorem fits_or_refuse (field : String) (op : Operator) (x : Operand) :
    op.Fits x ∧ (compare field op x).flaw? = none ∨
      ∃ fault, (compare field op x).flaw? = some fault ∧
        comparisonDraft field op x = .refuse fault := by
  match x with
  | .single v =>
    cases hop : op.takesSingle with
    | true => exact .inl ⟨.single hop v, by simp [flaw?, hop]⟩
    | false =>
      exact .inr ⟨.operandMismatch field op .list, by simp [flaw?, hop],
        by simp [comparisonDraft, hop]⟩
  | .list vs =>
    cases op with
    | member =>
      cases vs with
      | nil => exact .inr ⟨_, rfl, rfl⟩
      | cons v vs => exact .inl ⟨.member v vs, rfl⟩
    | between =>
      rcases vs with _ | ⟨low, _ | ⟨high, _ | ⟨v, vs⟩⟩⟩
      · exact .inr ⟨_, rfl, rfl⟩
      · exact .inr ⟨_, rfl, rfl⟩
      · exact .inl ⟨.between low high, rfl⟩
      · exact .inr ⟨.rangeArity field (low :: high :: v :: vs).length,
          by simp [flaw?, Operator.takesSingle], by simp [comparisonDraft]⟩
    | _ => exact .inr ⟨_, rfl, rfl⟩

end Condition

namespace Draft

theorem fault?_append_eq (x y : Draft) : (x ++ y).fault? = x.fault?.or y.fault? := by
  cases h : x.fault? with
  | none => rw [append_of_none y h, Option.none_or]
  | some fault => rw [append_of_some y h, h, Option.some_or]

/-- The fault of joined drafts is the first that one of them has. -/
theorem fault?_join_eq (separator : List Piece) (xs : List Draft) :
    (join separator xs).fault? = xs.findSome? fault? := by
  induction xs using join.induct with
  | case1 => rfl
  | case2 x => cases h : x.fault? <;> simp [join, h]
  | case3 x y rest ih =>
    rw [join, fault?_append_eq, fault?_append_mk, ih, List.findSome?_cons (a := x)]
    cases x.fault? <;> rfl

end Draft

namespace Condition

theorem findSome?_nodesAll {cs : List Condition} {f : Condition → Option Fault}
    (h : ∀ c ∈ cs, c.nodes.findSome? flaw? = f c) :
    (nodesAll cs).findSome? flaw? = cs.findSome? f := by
  induction cs with
  | nil => rfl
  | cons c cs ih =>
    rw [nodesAll, List.findSome?_append, h c List.mem_cons_self,
      ih fun x hx => h x (List.mem_cons_of_mem c hx), List.findSome?_cons]
    cases f c <;> rfl

/-- **The fault of a draft is the first flaw.** -/
theorem fault?_draft_eq (c : Condition) : c.draft.fault? = c.nodes.findSome? flaw? := by
  induction c using Condition.induction with
  | compare field op x =>
    rw [draft, nodes, List.findSome?_singleton]
    rcases fits_or_refuse field op x with ⟨hfit, hflaw⟩ | ⟨fault, hflaw, hrefuse⟩
    · rw [hflaw, fault?_comparisonDraft.mpr hfit]
    · rw [hflaw, hrefuse, Draft.refuse_fault?]
  | group c members ih =>
    rw [draft, nodes, List.findSome?_cons, flaw?]
    split
    · rfl
    · rw [Draft.fault?_append_mk, Draft.fault?_append_eq, draftAll_eq_join, Draft.fault?_join_eq,
        List.findSome?_map, findSome?_nodesAll fun m hm => (ih m hm).symm, Option.or_none]
      rfl
  | not inner ih =>
    rw [draft, nodes, Draft.fault?_append_mk, Draft.fault?_append_eq, ih, Option.or_none]
    rfl

/-- The fault of conditions side by side is the first flaw among their nodes. -/
theorem fault?_join_draft_eq (separator : List Piece) (cs : List Condition) :
    (Draft.join separator (cs.map draft)).fault? = (nodesAll cs).findSome? flaw? := by
  rw [Draft.fault?_join_eq, List.findSome?_map]
  exact (findSome?_nodesAll fun c _ => (fault?_draft_eq c).symm).symm

theorem findSome?_flaw?_eq_none {cs : List Condition} :
    (nodesAll cs).findSome? flaw? = none ↔ ∀ c ∈ cs, c.WellFormed := by
  rw [← fault?_join_draft_eq [], fault?_join_draft]

/-- **A condition is well formed exactly if none of its nodes is flawed.** -/
theorem wellFormed_iff {c : Condition} : c.WellFormed ↔ ∀ n ∈ c.nodes, n.flaw? = none := by
  rw [← fault?_draft, fault?_draft_eq, List.findSome?_eq_none_iff]

/-- **A condition by itself as a function of the tree.** -/
theorem statement_value_eq (d : Dialect) (c : Condition) :
    (c.statement d).value = match c.nodes.findSome? flaw? with
      | some fault => .error fault
      | none => .ok ⟨c.text d 1, c.values⟩ := by
  cases hflaw : c.nodes.findSome? flaw? with
  | some fault => rw [statement_value, Draft.statement, fault?_draft_eq, hflaw]
  | none => exact statement_of_wellFormed (wellFormed_iff.mpr (List.findSome?_eq_none_iff.mp hflaw))

end Condition

/-! ## What is written before a node is come upon -/

/-- **A node that is come upon**, with the text and the values that have been written by then. -/
structure Visit where
  node : Condition
  text : String
  values : List Value

namespace Visit

/-- The node is flawed. -/
def isFlawed (v : Visit) : Bool := v.node.flaw?.isSome

/-- The visit behind a text and values. -/
def behind (s : String) (vs : List Value) (v : Visit) : Visit :=
  ⟨v.node, s ++ v.text, vs ++ v.values⟩

end Visit

namespace Condition

mutual

/-- **The visits to the nodes of a condition**, depth first and from left to right.  Before a
member of a group the members that precede it are written, each with the separator. -/
def visits (d : Dialect) (k : Nat) : Condition → List Visit
  | compare field op x => [⟨compare field op x, "", []⟩]
  | group c members =>
    ⟨group c members, "", []⟩ :: (visitsAll d k c.separator members).map (.behind "(" [])
  | not inner => ⟨not inner, "", []⟩ :: (visits d k inner).map (.behind "NOT (" [])

/-- The visits to the nodes of conditions with a separator between them. -/
def visitsAll (d : Dialect) (k : Nat) (separator : String) : List Condition → List Visit
  | [] => []
  | m :: ms =>
    let rest := visitsAll d (k + m.placeholders) separator ms
    visits d k m ++ rest.map (.behind (text d k m ++ separator) m.values)

end

end Condition

/-- **A draft stops at the first flaw** among visits: what it puts is what has been written by
then. -/
def Draft.StopsAt (d : Dialect) (k : Nat) (x : Draft) (l : List Visit) : Prop :=
  match l.find? Visit.isFlawed with
  | none => x.fault? = none
  | some v => x.fault? ≠ none ∧ Spells d k x.pieces v.text v.values

namespace Draft.StopsAt

variable {d : Dialect} {k : Nat} {x y : Draft} {l m : List Visit}

/-- A draft behind another stops where its visits do, unless that one has stopped. -/
theorem append (hx : x.StopsAt d k l) {s : String} {vs : List Value}
    (hs : x.fault? = none → Spells d k x.pieces s vs) (hy : y.StopsAt d (k + vs.length) m) :
    (x ++ y).StopsAt d k (l ++ m.map (.behind s vs)) := by
  have hfind : (m.map (.behind s vs)).find? Visit.isFlawed =
      (m.find? Visit.isFlawed).map (.behind s vs) := List.find?_map
  rw [StopsAt] at hx hy ⊢
  rw [List.find?_append, hfind]
  cases hl : l.find? Visit.isFlawed with
  | some v =>
    rw [hl] at hx
    obtain ⟨fault, hf⟩ := Option.ne_none_iff_exists'.mp hx.1
    rw [append_of_some y hf]
    exact hx
  | none =>
    rw [hl] at hx
    rw [append_of_none y hx]
    cases hm : m.find? Visit.isFlawed with
    | none => rwa [hm] at hy
    | some v =>
      rw [hm] at hy
      exact ⟨hy.1, (hs hx).append hy.2⟩

/-- What is put at the end belongs to no visit. -/
theorem close (hx : x.StopsAt d k l) (ps : List Piece) : (x ++ ⟨ps, none⟩).StopsAt d k l := by
  rw [StopsAt] at hx ⊢
  cases hl : l.find? Visit.isFlawed with
  | some v =>
    rw [hl] at hx
    obtain ⟨fault, hf⟩ := Option.ne_none_iff_exists'.mp hx.1
    rw [append_of_some _ hf]
    exact hx
  | none =>
    rw [hl] at hx
    rw [append_of_none _ hx]

/-- A node without a flaw is visited, and what stands below it between words and blanks. -/
theorem enclose (hx : x.StopsAt d k l) {n : Condition} (hn : n.flaw? = none)
    (before after : List Piece) {o : String} (hb : before.all Piece.isFixed = true)
    (ho : o = fixedText before) :
    ((⟨before, none⟩ : Draft) ++ (x ++ ⟨after, none⟩)).StopsAt d k
      (⟨n, "", []⟩ :: l.map (.behind o [])) := by
  have hnode : (⟨before, none⟩ : Draft).StopsAt d k [⟨n, "", []⟩] := by
    simp [StopsAt, Visit.isFlawed, hn]
  exact hnode.append (fun _ => Spells.fixed before hb ho) (hx.close after)

end Draft.StopsAt

namespace Condition

variable {d : Dialect}

/-- Conditions side by side stop at the first flaw among the visits to them. -/
theorem stopsAt_join {c : Combinator} {ms : List Condition}
    (h : ∀ m ∈ ms, ∀ k, m.draft.StopsAt d k (m.visits d k)) (k : Nat) :
    (Draft.join c.pieces (ms.map draft)).StopsAt d k (visitsAll d k c.separator ms) := by
  induction ms generalizing k with
  | nil => rfl
  | cons m ms ih =>
    have hm := h m List.mem_cons_self k
    cases ms with
    | nil => simpa [visitsAll, Draft.join] using hm
    | cons m' rest =>
      -- the separator is written only if something follows, so its visits are those of the rest
      have hrest := ih (fun x hx => h x (List.mem_cons_of_mem m hx)) (k + m.values.length)
      have hstart : (⟨c.pieces, none⟩ : Draft).StopsAt d (k + m.values.length) [] := rfl
      have hall := hm.append (fun hf => spells_draft (fault?_draft.mp hf) k)
        (hstart.append (fun _ => spells_separator c _) hrest)
      rw [visitsAll, ← length_values]
      have hbehind : Visit.behind (m.text d k ++ c.separator) m.values =
          Visit.behind (m.text d k) m.values ∘ Visit.behind c.separator [] :=
        funext fun v => by simp [Visit.behind, String.append_assoc]
      rw [hbehind, ← List.map_map]
      exact hall

/-- **The draft of a condition stops at the first flawed node.** -/
theorem stopsAt_draft (c : Condition) (k : Nat) : c.draft.StopsAt d k (c.visits d k) := by
  induction c using Condition.induction generalizing k with
  | compare field op x =>
    rw [draft, visits]
    rcases fits_or_refuse field op x with ⟨hfit, hflaw⟩ | ⟨fault, hflaw, hrefuse⟩
    · simp [Draft.StopsAt, Visit.isFlawed, hflaw, fault?_comparisonDraft.mpr hfit]
    · rw [hrefuse]
      simpa [Draft.StopsAt, Visit.isFlawed, hflaw, Draft.refuse] using Spells.nil
  | group c members ih =>
    rw [draft, visits]
    split
    · next he =>
      rw [List.isEmpty_iff.mp he]
      simpa [Draft.StopsAt, Visit.isFlawed, flaw?, Draft.refuse] using Spells.nil
    · next he =>
      rw [draftAll_eq_join]
      exact (stopsAt_join ih k).enclose (by rw [flaw?, if_neg he]) [.word "("] [.word ")"] rfl rfl
  | not inner ih =>
    rw [draft, visits]
    exact (ih k).enclose rfl [.word "NOT", .blank, .word "("] [.word ")"] rfl rfl

mutual

theorem map_node_visits (k : Nat) : ∀ c : Condition, (c.visits d k).map Visit.node = c.nodes
  | compare _ _ _ => rfl
  | group c members => by
    rw [visits, nodes, List.map_cons, List.map_map]
    exact congrArg _ (map_node_visitsAll k c.separator members)
  | not inner => by
    rw [visits, nodes, List.map_cons, List.map_map]
    exact congrArg _ (map_node_visits k inner)

theorem map_node_visitsAll (k : Nat) (separator : String) :
    ∀ cs : List Condition, (visitsAll d k separator cs).map Visit.node = nodesAll cs
  | [] => rfl
  | c :: cs => by
    rw [visitsAll, nodesAll, List.map_append, List.map_map, map_node_visits k c]
    exact congrArg _ (map_node_visitsAll _ separator cs)

end

/-- **The first flawed node decides.**  Writing fails exactly if a node is flawed; the fault is the
first flaw, on every dialect; and of the condition the writer holds what has been written before the
first flawed node is come upon. -/
theorem write_first_flaw (d : Dialect) (w : Writer) (c : Condition) :
    ((∃ fault, ((c.write d).on w).1 = .error fault) ↔ ∃ n ∈ c.nodes, n.flaw? ≠ none) ∧
    (∀ fault, ((c.write d).on w).1 = .error fault ↔ c.nodes.findSome? flaw? = some fault) ∧
    (c.visits d w.next).map Visit.node = c.nodes ∧
    ∀ v, (c.visits d w.next).find? Visit.isFlawed = some v →
      ((c.write d).on w).2 = {
        text := w.text ++ v.text
        args := w.args ++ v.values
        next := w.next + v.values.length } := by
  have hfault : ∀ fault, ((c.write d).on w).1 = .error fault ↔
      c.nodes.findSome? flaw? = some fault := fun fault => by
    rw [(c.write_writes d w).on_eq, ← fault?_draft_eq, Draft.outcome]
    cases c.draft.fault? <;> simp
  refine ⟨?_, hfault, map_node_visits w.next c, fun v hv => ?_⟩
  · simp only [hfault, ← Option.isSome_iff_exists, List.findSome?_isSome_iff]
    simp only [Option.isSome_iff_ne_none]
  · have hstops := c.stopsAt_draft (d := d) w.next
    rw [Draft.StopsAt, hv] at hstops
    rw [(c.write_writes d w).on_eq]
    exact Writer.putAll_eq_extend hstops.2

end Condition

/-- A condition with two flawed nodes, a range of one end and a group without members. -/
def Condition.flawed : Condition :=
  .any [.compare "a" .eq (.single (.ofText "t")),
    .not (.all [.compare "b" .member (.list [.ofText "u"]),
      .compare "c" .between (.list [.ofText "v"]), .all []])]

theorem Condition.flawed_stops :
    (flawed.write .colons).on { args := [.ofText "s"], next := 2 } =
      (.error (.rangeArity "c" 1), {
        text := "(<a> = :20 OR NOT ((<b> IN (:30) AND "
        args := [.ofText "s", .ofText "t", .ofText "u"]
        next := 4 }) :=
  have h := write_first_flaw .colons { args := [.ofText "s"], next := 2 } flawed
  Prod.ext ((h.2.1 _).mpr rfl) (h.2.2.2 _ rfl)

end SelectQuery
