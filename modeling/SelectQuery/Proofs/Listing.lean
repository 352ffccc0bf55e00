import SelectQuery.Proofs.Ledger

/-!
# Proofs/Listing — lists that stop at the first failure

Columns, marks, members of a group and the filter are all lists: items one after the other, with a
separator between neighbours.  An item may look at the writer, so what it appends depends on the
items before it; the **outputs** of a list are therefore taken in turn (`Writing.InTurn`), each from
an item that runs behind the outputs of those before it and a separator after each of them.

If every item goes through, the outputs stand joined by the separator (`InTurn.on_list`); if one
fails, those before it keep their separators, and what the failed item had written stands behind
them (`InTurn.on_list_fault`).  Both are inductions on the items, whose step is that an item and a
separator extend the writer.
-/

namespace SelectQuery

/-! ## Outputs -/

/-- What is appended to a writer: a text, and values for its placeholders. -/
structure Output where
  text : String
  values : List Value

namespace Output

/-- One output behind another. -/
instance : Append Output where
  append x y := ⟨x.text ++ y.text, x.values ++ y.values⟩

variable (separator : String) (out : Output) (outs : List Output)

/-- The output with a separator behind it. -/
def followed : Output := ⟨out.text ++ separator, out.values⟩

/-- Outputs with a separator behind each of them. -/
def each : Output :=
  ⟨String.join (outs.map fun out => out.text ++ separator), outs.flatMap values⟩

/-- Outputs with a separator between neighbours. -/
def joined : Output := ⟨separator.intercalate (outs.map text), outs.flatMap values⟩

theorem each_cons :
    each separator (out :: outs) = out.followed separator ++ each separator outs := by
  simp only [each, List.map_cons, String.join_cons, List.flatMap_cons]
  rfl

theorem joined_singleton : joined separator [out] = out := by
  simp [joined]

/-- A separator stands behind an output that has others behind it. -/
theorem joined_cons {outs : List Output} (hne : outs ≠ []) :
    joined separator (out :: outs) = out.followed separator ++ joined separator outs := by
  have htexts : outs.map text ≠ [] := by simpa using hne
  simp only [joined, List.map_cons, String.intercalate_cons_of_ne_nil htexts, List.flatMap_cons]
  rfl

end Output

/-- The writer with an output appended. -/
def Writer.add (w : Writer) (out : Output) : Writer := w.extend out.text out.values

theorem Writer.add_append (w : Writer) (x y : Output) : w.add (x ++ y) = (w.add x).add y :=
  (w.extend_extend x.text y.text x.values y.values).symm

namespace Writing

variable {α : Type} {separator : String} {item : α → Writing Unit} {w : Writer} {x : α}
  {xs : List α} {out : Output} {outs : List Output} {fault : Fault}

/-! ## Items in turn -/

/-- **Items go through in turn**, and leave these outputs: each runs on the writer as those before
it have left it, with a separator behind the last of them. -/
inductive InTurn (separator : String) (item : α → Writing Unit) :
    Writer → List α → List Output → Prop
  | nil (w : Writer) : InTurn separator item w [] []
  | cons {w : Writer} {x : α} {xs : List α} {out : Output} {outs : List Output} :
      (item x).on w = (.ok (), w.add out) →
      InTurn separator item (w.add (out.followed separator)) xs outs →
      InTurn separator item w (x :: xs) (out :: outs)

/-- There is an output for each item. -/
theorem InTurn.length_eq (h : InTurn separator item w xs outs) : outs.length = xs.length := by
  induction h with
  | nil => rfl
  | cons _ _ ih => rw [List.length_cons, List.length_cons, ih]

/-- **An item before others** is written, and a separator behind it. -/
theorem on_list_cons (h : (item x).on w = (.ok (), w.add out)) (hne : xs ≠ []) :
    (list separator item (x :: xs)).on w =
      (list separator item xs).on (w.add (out.followed separator)) := by
  obtain ⟨y, rest, rfl⟩ := List.exists_cons_of_ne_nil hne
  have hfollowed : (w.add out).push separator = w.add (out.followed separator) := by
    rw [Writer.push_eq_extend, Writer.add, Writer.extend_extend, List.append_nil]
    rfl
  rw [list, on_bind, h, ← hfollowed]
  exact on_bind (push separator) _ _

/-- **An item that fails** ends the list, whatever is behind it. -/
theorem on_list_fault {w' : Writer} (h : (item x).on w = (.error fault, w')) (xs : List α) :
    (list separator item (x :: xs)).on w = (.error fault, w') := by
  cases xs with
  | nil => exact h
  | cons y rest => rw [list, on_bind, h]

/-- **Items that all go through** are appended with a separator between neighbours. -/
theorem InTurn.on_list (h : InTurn separator item w xs outs) :
    (list separator item xs).on w = (.ok (), w.add (.joined separator outs)) := by
  induction h with
  | nil w => exact congrArg (Prod.mk _) w.extend_nil.symm
  | @cons w x xs out outs hx hxs ih =>
    by_cases hne : xs = []
    · subst hne
      obtain rfl := List.eq_nil_of_length_eq_zero hxs.length_eq
      rw [Output.joined_singleton]
      exact hx
    · have houts : outs ≠ [] := by
        intro hnil
        exact hne (List.eq_nil_of_length_eq_zero (hxs.length_eq ▸ congrArg List.length hnil))
      rw [on_list_cons hx hne, ih, Output.joined_cons separator out houts, Writer.add_append]

/-- **Items up to one that fails** are appended with a separator behind each, and then what that one
wrote.  No item behind it is run. -/
theorem InTurn.on_list_fault (h : InTurn separator item w xs outs) {item' : α → Writing Unit}
    (hitem : ∀ y ∈ xs ++ [x], item' y = item y)
    (hx : (item x).on (w.add (.each separator outs)) =
      (.error fault, (w.add (.each separator outs)).add out)) (after : List α) :
    (list separator item' (xs ++ x :: after)).on w =
      (.error fault, w.add (.each separator outs ++ out)) := by
  rw [Writer.add_append]
  induction h with
  | nil w =>
    rw [← hitem x List.mem_cons_self] at hx
    have hnil : w.add (.each separator []) = w := w.extend_nil
    rw [hnil] at hx ⊢
    exact Writing.on_list_fault hx after
  | @cons w y xs out' outs hy hxs ih =>
    rw [← hitem y List.mem_cons_self] at hy
    -- What the failing item runs behind is the same seen from the second item on.
    rw [Output.each_cons, Writer.add_append] at hx ⊢
    have hne : xs ++ x :: after ≠ [] :=
      List.append_ne_nil_of_right_ne_nil xs (List.cons_ne_nil x after)
    rw [List.cons_append, on_list_cons hy hne]
    exact ih (fun z hz => hitem z (List.mem_cons_of_mem y hz)) hx

/-- A writing that is made of the operations has an output. -/
theorem Made.exists_output {β : Type} {x : Writing β} (h : Made x) (w : Writer) :
    ∃ out, x.on w = ((x.on w).1, w.add out) := by
  obtain ⟨log, hrun⟩ := h.run w
  obtain ⟨s, vs, hw, -⟩ := hrun.extends
  exact ⟨⟨s, vs⟩, Prod.ext rfl hw⟩

/-- **All items go through, or there is a first one that fails.** -/
theorem inTurn_or_fault (separator : String) {xs : List α} (h : ∀ x ∈ xs, Made (item x))
    (w : Writer) :
    (∃ outs, InTurn separator item w xs outs) ∨
      ∃ before x after outs fault out, xs = before ++ x :: after ∧
        InTurn separator item w before outs ∧
        (item x).on (w.add (.each separator outs)) =
          (.error fault, (w.add (.each separator outs)).add out) := by
  induction xs generalizing w with
  | nil => exact .inl ⟨[], .nil w⟩
  | cons x xs ih =>
    obtain ⟨out, hout⟩ := (h x List.mem_cons_self).exists_output w
    rcases hx : ((item x).on w).1 with fault | ⟨⟩
    · have hnil : w.add (.each separator []) = w := w.extend_nil
      refine .inr ⟨[], x, xs, [], fault, out, rfl, .nil w, ?_⟩
      rw [hnil, hout, hx]
    · rw [hx] at hout
      -- The rest runs behind this item, so what goes wrong there goes wrong first.
      rcases ih (fun z hz => h z (List.mem_cons_of_mem x hz)) (w.add (out.followed separator)) with
        ⟨outs, houts⟩ | ⟨before, y, after, outs, fault, out', rfl, houts, hy⟩
      · exact .inl ⟨out :: outs, .cons hout houts⟩
      · refine .inr ⟨x :: before, y, after, out :: outs, fault, out', rfl, .cons hout houts, ?_⟩
        rw [Output.each_cons, Writer.add_append]
        exact hy

/-! ## Lists -/

/-- **A list is written up to its first failure.**  If all items go through, their outputs are
appended in order, with the separator between neighbours and nowhere else.  If one fails, the list
fails with it: the outputs before it are appended with a separator behind each, and then what it
wrote; items behind it are not run, so neither they nor what would be done with them matters.  One
of the two it is, if the items are made of the operations, and then so is the list: it may be an
item itself. -/
theorem list_early_exit {α : Type} (separator : String) (item : α → Writing Unit) (w : Writer) :
    (∀ xs outs, InTurn separator item w xs outs → outs.length = xs.length ∧
      (list separator item xs).on w = (.ok (), w.add (.joined separator outs))) ∧
    (∀ before x outs fault out, InTurn separator item w before outs →
      (item x).on (w.add (.each separator outs)) =
        (.error fault, (w.add (.each separator outs)).add out) →
      ∀ (item' : α → Writing Unit) (after : List α), (∀ y ∈ before ++ [x], item' y = item y) →
        (list separator item' (before ++ x :: after)).on w =
          (.error fault, w.add (.each separator outs ++ out))) ∧
    ∀ xs : List α, (∀ x ∈ xs, Made (item x)) →
      Made (list separator item xs) ∧
      ((∃ outs, InTurn separator item w xs outs) ∨
        ∃ before x after outs fault out, xs = before ++ x :: after ∧
          InTurn separator item w before outs ∧
          (item x).on (w.add (.each separator outs)) =
            (.error fault, (w.add (.each separator outs)).add out)) := by
  refine ⟨fun xs outs h => ⟨h.length_eq, h.on_list⟩, ?_, fun xs h => ?_⟩
  · intro before x outs fault out h hx item' after hitem
    exact h.on_list_fault hitem hx after
  · exact ⟨.list separator xs h, inTurn_or_fault separator h w⟩

/-- Writes values as a list; where there are none, it says so and fails. -/
def ratios (d : Dialect) (vs : List Value) : Writing Unit :=
  if vs.isEmpty then do
    push "none"
    throw .missingTable
  else list "/" (fun v => discard (value d v)) vs

theorem made_ratios (d : Dialect) (vs : List Value) : Made (ratios d vs) := by
  rw [ratios]
  split
  · exact .seq (.push "none") fun _ => .throw .missingTable
  · exact .list "/" vs fun v _ => .seq (.value d v) fun _ => .pure ()

theorem ratios_early_exit :
    let v : Value := .null .text
    let w : Writer := ⟨"x = ", [v], 2⟩
    let out : Output := ⟨"?/?", [.ofText "a", .ofText "b"]⟩
    InTurn ", " (ratios .mysql) w [[.ofText "a", .ofText "b"]] [out] ∧
    (list ", " (ratios .mysql) [[.ofText "a", .ofText "b"]]).on w =
      (.ok (), ⟨"x = ?/?", [v, .ofText "a", .ofText "b"], 4⟩) ∧
    (list ", " (ratios .mysql) [[.ofText "a", .ofText "b"], [], [.ofText "c"]]).on w =
      (.error .missingTable, ⟨"x = ?/?, none", [v, .ofText "a", .ofText "b"], 4⟩) ∧
    Made (list ", " (ratios .mysql) [[.ofText "a"], []]) := by
  intro v w out
  obtain ⟨hall, hfault, hmade⟩ := list_early_exit ", " (ratios .mysql) w
  have hturn : InTurn ", " (ratios .mysql) w [[.ofText "a", .ofText "b"]] [out] :=
    .cons rfl (.nil _)
  have hlist := (hall _ _ hturn).2
  have hfails := hfault _ [] _ .missingTable ⟨"none", []⟩ hturn rfl (ratios .mysql) [[.ofText "c"]]
    fun _ _ => rfl
  exact ⟨hturn, hlist, hfails, (hmade _ fun vs _ => made_ratios .mysql vs).1⟩

end Writing

end SelectQuery
