import SelectQuery.Proofs.Binding

/-!
# Proofs/Equality — equality by a canonical form

A floating-point number that is no number equals nothing, not even itself, and the two zeros are
equal although their patterns differ.  Everything that holds such numbers inherits this, so `==` is
less than equality.  What it is instead is **equality by a form** (`EqualBy`): two things are equal
exactly if there is a NaN in neither and their canonical forms, with the positive zero everywhere,
are the same.  This goes from numbers up to documents, values, lists and conditions, one case for
each constructor; the numbers of documents are finite, so of these the form alone decides.  That
equality is a partial equivalence, and what equals itself, follows once for all of them.

The canonical form of a condition changes nothing but its values.  So conditions that are equal are
alike, and their texts are the same (`Condition.equality_respected`).
-/

namespace SelectQuery

/-! ## Equality by a form -/

/-- **Equality by a form**: two things are equal exactly if nothing is wrong with either and their
forms are the same. -/
def EqualBy {α β : Type} [BEq α] (wrong : α → Bool) (form : α → β) : Prop :=
  ∀ a b : α, a == b ↔ wrong a = false ∧ wrong b = false ∧ form a = form b

/-- Three facts about the first and the rest, one by one. -/
theorem triples_iff {p q r p' q' r' : Prop} :
    (p ∧ q ∧ r) ∧ p' ∧ q' ∧ r' ↔ (p ∧ p') ∧ (q ∧ q') ∧ r ∧ r' := by
  rw [and_and_and_comm, and_and_and_comm (a := q)]

/-- A label that is the same, beside three facts. -/
theorem labelled_iff {label p q r : Prop} : label ∧ p ∧ q ∧ r ↔ p ∧ q ∧ label ∧ r := by
  rw [and_left_comm, and_left_comm (a := label)]

namespace EqualBy

variable {α β : Type} [BEq α] {wrong : α → Bool} {form : α → β}

/-- **Equality by a form is a partial equivalence.** -/
theorem partialEquivBEq (h : EqualBy wrong form) : PartialEquivBEq α where
  symm := by
    intro a b hab
    obtain ⟨ha, hb, hform⟩ := (h a b).mp hab
    exact (h b a).mpr ⟨hb, ha, hform.symm⟩
  trans := by
    intro a b c hab hbc
    obtain ⟨ha, -, hform⟩ := (h a b).mp hab
    obtain ⟨-, hc, hform'⟩ := (h b c).mp hbc
    exact (h a c).mpr ⟨ha, hc, hform.trans hform'⟩

/-- **What equals itself** is that with which nothing is wrong. -/
theorem beq_self (h : EqualBy wrong form) (a : α) : (a == a) = !wrong a := by
  rw [Bool.eq_iff_iff, h a a]
  simp

/-- Equality in earnest goes by the thing itself. -/
theorem lawful [LawfulBEq α] : EqualBy (fun _ : α => false) id := by
  intro a b
  simp

/-- Lists are equal item by item. -/
theorem list (h : EqualBy wrong form) : EqualBy (List.any · wrong) (List.map form) := by
  intro as bs
  induction as generalizing bs with
  | nil => cases bs <;> simp
  | cons a as ih =>
    cases bs with
    | nil => simp
    | cons b bs =>
      rw [List.cons_beq_cons, Bool.and_eq_true, h a b, ih bs, triples_iff]
      simp only [List.any_cons, Bool.or_eq_false_iff, List.map_cons, List.cons.injEq]

end EqualBy

/-! ## Numbers -/

namespace Number.Binary

variable {F : Format}

/-- The number, with the positive zero for either. -/
def canonical (x : Binary F) : Binary F := if x.isZero then ofParts false 0 else x

theorem isZero_canonical (x : Binary F) : x.canonical.isZero = x.isZero := by
  rw [canonical]
  split
  · next h =>
    rw [h]
    simp [isZero, unsigned, ofParts]
  · rfl

/-- **Numbers are equal by their pattern**, but for the sign of zero. -/
theorem equalBy : EqualBy (isNaN (F := F)) canonical := by
  intro x y
  have hform : canonical x = canonical y ↔ x = y ∨ x.isZero ∧ y.isZero := by
    constructor
    · intro h
      have hzero : x.isZero = y.isZero := by rw [← isZero_canonical x, h, isZero_canonical]
      cases hx : x.isZero with
      | true => exact .inr ⟨rfl, hzero ▸ hx⟩
      | false =>
        rw [canonical, canonical, ← hzero, hx] at h
        exact .inl h
    · rintro (rfl | ⟨hx, hy⟩)
      · rfl
      · rw [canonical, canonical, if_pos hx, if_pos hy]
  rw [hform]
  change (!x.isNaN && !y.isNaN && (x.bits == y.bits || (x.isZero && y.isZero))) = true ↔ _
  simp [and_assoc, Binary.ext_iff]

end Number.Binary

/-! ## Documents

The numbers of a document are finite, so nothing is ever wrong with one. -/

namespace Number.Finite

variable {F : Format}

/-- The number, with the positive zero for either. -/
def canonical (x : Finite F) : Finite F := if x.isZero then ofParts false 0 F.infinity_pos else x

theorem toBinary_canonical (x : Finite F) : x.canonical.toBinary = x.toBinary.canonical := by
  rw [canonical, Binary.canonical]
  split <;> rfl

/-- **Finite numbers are equal by their canonical form.** -/
theorem beq_iff_canonical {x y : Finite F} : x == y ↔ x.canonical = y.canonical := by
  have hbinary := Binary.equalBy x.toBinary y.toBinary
  rw [isNaN_toBinary, isNaN_toBinary, ← toBinary_canonical, ← toBinary_canonical] at hbinary
  refine hbinary.trans ⟨fun h => ?_, fun h => ⟨rfl, rfl, congrArg toBinary h⟩⟩
  exact Finite.ext (congrArg Binary.bits h.2.2)

end Number.Finite

/-- The number, with the positive zero for either. -/
def JsonNumber.canonical : JsonNumber → JsonNumber
  | real x => real x.canonical
  | n => n

/-- Numbers of one form are equal as numbers. -/
theorem JsonNumber.beq_iff_canonical {a b : JsonNumber} :
    a == b ↔ a.canonical = b.canonical := by
  cases a <;> cases b
  case natural.natural m n => exact (beq_iff_eq (a := m)).trans (by simp [canonical])
  case negative.negative m _ n _ => exact (beq_iff_eq (a := m)).trans (by simp [canonical])
  case real.real x y => exact Number.Finite.beq_iff_canonical.trans (by simp [canonical])
  all_goals simp [canonical]

namespace Json

mutual

/-- The tree with the positive zero everywhere. -/
def canonical : Json → Json
  | number n => number n.canonical
  | array items => array (canonicalItems items)
  | object fields => object (canonicalFields fields)
  | v => v

/-- The items with the positive zero everywhere. -/
def canonicalItems : List Json → List Json
  | [] => []
  | v :: vs => canonical v :: canonicalItems vs

/-- The fields with the positive zero everywhere. -/
def canonicalFields : List (String × Json) → List (String × Json)
  | [] => []
  | (k, v) :: rest => (k, canonical v) :: canonicalFields rest

end

mutual

/-- Trees are equal by their canonical form, constructor by constructor. -/
theorem equal_iff : ∀ a b : Json, equal a b ↔ a.canonical = b.canonical
  | null, b => by cases b <;> simp [equal, canonical]
  | bool _, b => by cases b <;> simp [equal, canonical]
  | text _, b => by cases b <;> simp [equal, canonical]
  | number m, b => by
    cases b
    case number n => exact JsonNumber.beq_iff_canonical.trans (by simp [canonical])
    all_goals simp [equal, canonical]
  | array as, b => by
    cases b
    case array bs => exact (equalItems_iff as bs).trans (by simp [canonical])
    all_goals simp [equal, canonical]
  | object as, b => by
    cases b
    case object bs => exact (equalFields_iff as bs).trans (by simp [canonical])
    all_goals simp [equal, canonical]

theorem equalItems_iff : ∀ as bs : List Json,
    equalItems as bs ↔ canonicalItems as = canonicalItems bs
  | [], bs => by cases bs <;> simp [equalItems, canonicalItems]
  | a :: as, [] => by simp [equalItems, canonicalItems]
  | a :: as, b :: bs => by
    rw [equalItems, Bool.and_eq_true, equal_iff a b, equalItems_iff as bs]
    simp only [canonicalItems, List.cons.injEq]

theorem equalFields_iff : ∀ as bs : List (String × Json),
    equalFields as bs ↔ canonicalFields as = canonicalFields bs
  | [], bs => by cases bs <;> simp [equalFields, canonicalFields]
  | (k, a) :: as, [] => by simp [equalFields, canonicalFields]
  | (k, a) :: as, (l, b) :: bs => by
    rw [equalFields, Bool.and_eq_true, Bool.and_eq_true, beq_iff_eq, equal_iff a b,
      equalFields_iff as bs]
    simp only [canonicalFields, List.cons.injEq, Prod.mk.injEq]

end

theorem canonicalItems_eq_map (vs : List Json) : canonicalItems vs = vs.map canonical := by
  induction vs with
  | nil => rfl
  | cons v vs ih => rw [canonicalItems, ih, List.map_cons]

theorem canonicalFields_eq_map (fields : List (String × Json)) :
    canonicalFields fields = fields.map fun f => (f.1, f.2.canonical) := by
  induction fields with
  | nil => rfl
  | cons f rest ih => rw [canonicalFields, ih, List.map_cons]

/-- The canonical form has the keys of the tree, and so its order. -/
theorem ordered_canonical {v : Json} (h : v.Ordered) : v.canonical.Ordered := by
  induction h with
  | array _ ih =>
    rw [canonical, canonicalItems_eq_map]
    exact .array (List.forall_mem_map.mpr ih)
  | object hkeys _ ih =>
    rw [canonical, canonicalFields_eq_map]
    exact .object (List.pairwise_map.mpr hkeys) (List.forall_mem_map.mpr ih)
  | null => exact .null
  | bool b => exact .bool b
  | number n => exact .number n.canonical
  | text s => exact .text s

namespace Document

/-- The document with the positive zero everywhere. -/
def canonical (doc : Document) : Document := ⟨doc.tree.canonical, ordered_canonical doc.ordered⟩

/-- **Documents are equal by their canonical form**, and nothing is wrong with any. -/
theorem equalBy : EqualBy (fun _ : Document => false) canonical := by
  intro a b
  refine (equal_iff a.tree b.tree).trans ?_
  simp only [canonical, Document.mk.injEq, true_and]

/-- **Equality of documents is an equivalence.** -/
theorem equivBEq : EquivBEq Document :=
  have := equalBy.partialEquivBEq
  { rfl := fun {doc} => equalBy.beq_self doc }

end Document

end Json

/-! ## Values -/

namespace Scalar

/-- The scalar is a NaN. -/
def hasNaN : Scalar → Bool
  | single x => x.isNaN
  | double x => x.isNaN
  | _ => false

/-- The scalar with the positive zero everywhere. -/
def canonical : Scalar → Scalar
  | single x => single x.canonical
  | double x => double x.canonical
  | json doc => json doc.canonical
  | x => x

/-- **Scalars are equal by their canonical form.**  This differs from the scalar only of three
kinds. -/
theorem equalBy : EqualBy hasNaN canonical := by
  intro a b
  cases a <;> cases b
  case single.single x y =>
    exact (Number.Binary.equalBy x y).trans (by simp [hasNaN, canonical])
  case double.double x y =>
    exact (Number.Binary.equalBy x y).trans (by simp [hasNaN, canonical])
  case json.json x y => exact (Json.Document.equalBy x y).trans (by simp [hasNaN, canonical])
  -- Scalars of two kinds are neither equal nor of one form; the other kinds are equal in earnest.
  all_goals simp [hasNaN, canonical]
  all_goals rename_i x y; exact beq_iff_eq (a := x) (b := y)

end Scalar

namespace Value

/-- There is a NaN in the value. -/
def hasNaN : Value → Bool
  | null _ => false
  | scalar x => x.hasNaN

/-- The value with the positive zero everywhere. -/
def canonical : Value → Value
  | null k => null k
  | scalar x => scalar x.canonical

/-- **Values are equal by their canonical form.** -/
theorem equalBy : EqualBy hasNaN canonical := by
  intro v u
  cases v <;> cases u
  case null.null k l => exact (EqualBy.lawful k l).trans (by simp [hasNaN, canonical])
  case scalar.scalar x y => exact (Scalar.equalBy x y).trans (by simp [hasNaN, canonical])
  all_goals simp [hasNaN, canonical]

end Value

/-! ## Conditions -/

theorem Operand.equalBy :
    EqualBy (fun x : Operand => x.values.any Value.hasNaN) (map Value.canonical) := by
  intro x y
  cases x <;> cases y
  case single.single v u => exact (Value.equalBy v u).trans (by simp [values, map])
  case list.list vs us => exact (Value.equalBy.list vs us).trans (by simp [values, map])
  all_goals simp [map]

namespace Condition

/-- There is a NaN in one of the values. -/
def hasNaN (c : Condition) : Bool := c.values.any Value.hasNaN

mutual

/-- Conditions are equal by their canonical form, constructor by constructor. -/
theorem equal_iff : ∀ a b : Condition, equal a b ↔
    a.hasNaN = false ∧ b.hasNaN = false ∧
      a.mapValues Value.canonical = b.mapValues Value.canonical
  | compare field op x, b => by
    cases b
    case compare field' op' y =>
      rw [equal, Bool.and_eq_true, Bool.and_eq_true, beq_iff_eq, beq_iff_eq, Operand.equalBy x y,
        labelled_iff]
      simp only [hasNaN, values, mapValues, compare.injEq, and_assoc]
    all_goals simp [equal, mapValues]
  | group _ members, b => by
    cases b
    case group _ members' =>
      rw [equal, Bool.and_eq_true, beq_iff_eq, equalAll_iff members members', labelled_iff]
      simp only [hasNaN, values, mapValues, group.injEq]
    all_goals simp [equal, mapValues]
  | not inner, b => by
    cases b
    case not inner' => exact (equal_iff inner inner').trans (by simp [hasNaN, values, mapValues])
    all_goals simp [equal, mapValues]

theorem equalAll_iff : ∀ as bs : List Condition, equalAll as bs ↔
    (valuesAll as).any Value.hasNaN = false ∧ (valuesAll bs).any Value.hasNaN = false ∧
      mapValuesAll Value.canonical as = mapValuesAll Value.canonical bs
  | [], bs => by cases bs <;> simp [equalAll, valuesAll, mapValuesAll]
  | a :: as, [] => by simp [equalAll, mapValuesAll]
  | a :: as, b :: bs => by
    rw [equalAll, Bool.and_eq_true, equal_iff a b, equalAll_iff as bs, triples_iff]
    simp only [hasNaN, valuesAll, mapValuesAll, List.any_append, Bool.or_eq_false_iff,
      List.cons.injEq]

end

/-- **Conditions are equal by their canonical form.** -/
theorem equalBy : EqualBy hasNaN (mapValues Value.canonical) := equal_iff

end Condition

/-! ## Conditions that are equal -/

namespace Condition

variable {a b : Condition}

/-- **Conditions that are equal are alike.** -/
theorem alike_of_beq (h : a == b) : a.Alike b := by
  obtain ⟨-, -, hform⟩ := (equalBy a b).mp h
  have hunbound (c : Condition) : (c.mapValues Value.canonical).unbound = c.unbound :=
    mapValues_mapValues _ _ c
  rw [Alike, ← hunbound a, hform, hunbound b]

/-- The values of conditions that are equal are equal. -/
theorem values_of_beq (h : a == b) : a.values == b.values := by
  obtain ⟨ha, hb, hform⟩ := (equalBy a b).mp h
  refine (Value.equalBy.list a.values b.values).mpr ⟨ha, hb, ?_⟩
  rw [← values_mapValues, hform, values_mapValues]

/-- **Equality is a partial equivalence that rendering respects.**  Of values, of arguments and of
conditions it is symmetric and transitive, and what equals itself is that which has no NaN anywhere;
of documents, in which there is none, it is an equivalence.  Conditions that are equal have as many
placeholders, and on any dialect the same fault or the same text, with arguments that are equal. -/
theorem equality_respected :
    (PartialEquivBEq Value ∧ ∀ v : Value, (v == v) = !v.hasNaN) ∧
    (PartialEquivBEq Args ∧ ∀ vs : Args, (vs == vs) = !vs.any Value.hasNaN) ∧
    (PartialEquivBEq Condition ∧ ∀ c : Condition, (c == c) = !c.values.any Value.hasNaN) ∧
    EquivBEq Json.Document ∧
    ∀ a b : Condition, a == b →
      a.placeholders = b.placeholders ∧ a.values == b.values ∧
        ∀ d : Dialect, SameText a.values b.values (a.statement d).value (b.statement d).value := by
  refine ⟨⟨Value.equalBy.partialEquivBEq, Value.equalBy.beq_self⟩,
    ⟨Value.equalBy.list.partialEquivBEq, Value.equalBy.list.beq_self⟩,
    ⟨equalBy.partialEquivBEq, equalBy.beq_self⟩, Json.Document.equivBEq,
    fun a b h => ?_⟩
  have halike : a.Alike b := alike_of_beq h
  exact ⟨halike.congr placeholders (placeholders_mapValues _), values_of_beq h, halike.sameText⟩

/-- A condition on a number and on a document with a zero of this sign. -/
def onNumber (x : Number.Double) (negative : Bool) : Condition :=
  let zero : JsonNumber := .real (.ofParts negative 0 (Number.Format.infinity_pos _))
  let doc : Json.Document :=
    ⟨.array [.number zero], .array (List.forall_mem_singleton.mpr (.number zero))⟩
  .not (.compare "a" .member (.list [.scalar (.double x), .scalar (.json doc)]))

theorem onNumber_respected :
    let a := onNumber (.ofParts false 0) false
    let b := onNumber (.ofParts true 0) true
    let nan := onNumber (.ofParts false (Number.Format.double.infinity + 1)) false
    a ≠ b ∧ a == b ∧ b == a ∧ (nan == nan) = false ∧ a.values == b.values ∧
      SameText a.values b.values (a.statement .mysql).value (b.statement .mysql).value := by
  intro a b nan
  obtain ⟨-, -, ⟨hpartial, hself⟩, -, hequal⟩ := equality_respected
  have hab : a == b := by decide +kernel
  have hdiffer : a ≠ b := by
    intro h
    have hvalue := (List.cons.inj (congrArg values h)).1
    exact absurd (Scalar.double.inj (Value.scalar.inj hvalue)) (by decide +kernel)
  obtain ⟨-, hvalues, htext⟩ := hequal a b hab
  exact ⟨hdiffer, hab, hpartial.symm hab, (hself nan).trans (by decide +kernel), hvalues, htext _⟩

end Condition

end SelectQuery
