import Mathlib.Data.List.Forall2
import Mathlib.Logic.Relation
import SelectQuery.Text.Blank

/-!
# Proofs/Spelling — the spellings of a text

Blanks around a text and the case of its ASCII letters do not count where a text names something.
Two texts that differ in these alone are **spellings** of one text (`Respelled`), and they are what
`folded` brings to one form (`respelled_iff`).  Two facts carry this: trimming is undone by blanks
(`trim_eq_iff`), and it does not see the case of letters (`trim_toLower`), because no blank is a
letter.
-/

namespace SelectQuery.Text

variable {s t : String} {c d : Char} {xs : List Char}

/-! ## Blanks around a text -/

/-- **A text with blanks around it**, on either side any number of them. -/
def Padded (s t : String) : Prop :=
  ∃ before after : List Char, (∀ c ∈ before, isBlank c) ∧ (∀ c ∈ after, isBlank c) ∧
    t.toList = before ++ s.toList ++ after

/-- No blank stands at either end of a text. -/
def Tight (s : String) : Prop :=
  (∀ c ∈ s.toList.head?, isBlank c = false) ∧ ∀ c ∈ s.toList.getLast?, isBlank c = false

/-- Trimming takes the blanks in front, and then those at the end. -/
theorem toList_trim (s : String) : (trim s).toList = trimEnd (s.toList.dropWhile isBlank) :=
  String.toList_ofList

/-- Of blanks alone nothing stays. -/
theorem dropWhile_of_blanks (h : ∀ c ∈ xs, isBlank c) : xs.dropWhile isBlank = [] := by
  rw [← List.append_nil xs, List.dropWhile_append_of_pos h, List.dropWhile_nil]

/-- Where no blank is in front all stays. -/
theorem dropWhile_of_head (h : ∀ c ∈ xs.head?, isBlank c = false) :
    xs.dropWhile isBlank = xs := by
  cases xs with
  | nil => rfl
  | cons c xs => exact List.dropWhile_cons_of_neg (Bool.eq_false_iff.mp (h c rfl))

theorem head_dropWhile (h : c ∈ (xs.dropWhile isBlank).head?) : isBlank c = false := by
  have hnot := List.head?_dropWhile_not isBlank xs
  rwa [Option.mem_def.mp h] at hnot

/-- Blanks at the end make no difference to what is left without them. -/
theorem trimEnd_append (xs : List Char) {ys : List Char} (h : ∀ c ∈ ys, isBlank c) :
    trimEnd (xs ++ ys) = trimEnd xs := by
  have hreverse : ∀ c ∈ ys.reverse, isBlank c := fun c hc => h c (List.mem_reverse.mp hc)
  rw [trimEnd, List.reverse_append, List.dropWhile_append_of_pos hreverse]
  rfl

/-- What is dropped from the end are blanks. -/
theorem exists_trimEnd_append (xs : List Char) :
    ∃ ys, (∀ c ∈ ys, isBlank c) ∧ xs = trimEnd xs ++ ys := by
  refine ⟨(xs.reverse.takeWhile isBlank).reverse, fun c hc => ?_, ?_⟩
  · exact List.all_eq_true.mp List.all_takeWhile c (List.mem_reverse.mp hc)
  · rw [trimEnd, ← List.reverse_append, List.takeWhile_append_dropWhile, List.reverse_reverse]

/-- Blanks around a text make no difference once it is trimmed. -/
theorem Padded.trim_eq (h : Padded s t) : trim t = trim s := by
  obtain ⟨before, after, hbefore, hafter, ht⟩ := h
  rw [← String.toList_inj, toList_trim, toList_trim, ht, List.append_assoc,
    List.dropWhile_append_of_pos hbefore, List.dropWhile_append]
  split
  -- A text of blanks alone: what follows it is dropped from the front, not from the end.
  · next hempty => rw [List.isEmpty_iff.mp hempty, dropWhile_of_blanks hafter]
  · rw [trimEnd_append _ hafter]

/-- **What is trimmed was padded** around what is left. -/
theorem padded_trim (s : String) : Padded (trim s) s := by
  obtain ⟨after, hafter, heq⟩ := exists_trimEnd_append (s.toList.dropWhile isBlank)
  refine ⟨s.toList.takeWhile isBlank, after, fun c hc => ?_, hafter, ?_⟩
  · exact List.all_eq_true.mp List.all_takeWhile c hc
  · rw [toList_trim, List.append_assoc, ← heq, List.takeWhile_append_dropWhile]

/-- **What is left has no blank at either end.** -/
theorem tight_trim (s : String) : Tight (trim s) := by
  rw [Tight, toList_trim]
  refine ⟨fun c hc => ?_, fun c hc => ?_⟩
  -- What is left begins as it did before its end was trimmed.
  · obtain ⟨after, -, heq⟩ := exists_trimEnd_append (s.toList.dropWhile isBlank)
    have hhead : c ∈ (s.toList.dropWhile isBlank).head? := by
      rw [heq, List.head?_append, Option.mem_def.mp hc]
      rfl
    exact head_dropWhile hhead
  · rw [trimEnd, List.getLast?_reverse] at hc
    exact head_dropWhile hc

/-- Where no blank is at either end nothing is trimmed. -/
theorem Tight.trim_eq (h : Tight s) : trim s = s := by
  have hlast : ∀ c ∈ s.toList.reverse.head?, isBlank c = false := by
    rw [List.head?_reverse]
    exact h.2
  rw [← String.toList_inj, toList_trim, dropWhile_of_head h.1, trimEnd, dropWhile_of_head hlast,
    List.reverse_reverse]

/-- **Trimming takes away the blanks around a text**, all of them and nothing else. -/
theorem trim_eq_iff : trim s = t ↔ Padded t s ∧ Tight t := by
  constructor
  · rintro rfl
    exact ⟨padded_trim s, tight_trim s⟩
  · rintro ⟨hpadded, htight⟩
    rw [hpadded.trim_eq, htight.trim_eq]

/-- What is left of a text is in it, in order. -/
theorem sublist_trim (s : String) : (trim s).toList.Sublist s.toList := by
  obtain ⟨before, after, -, -, heq⟩ := padded_trim s
  rw [heq, List.append_assoc]
  exact (List.sublist_append_left _ _).trans (List.sublist_append_right _ _)

/-! ## The case of letters -/

/-- **One character, or one letter of ASCII in its two cases.** -/
def SameLetter (c d : Char) : Prop :=
  c = d ∨ (c.isUpper ∧ d.toNat = c.toNat + 32) ∨ (d.isUpper ∧ c.toNat = d.toNat + 32)

/-- **A text with the case of some letters changed.** -/
def Recased (s t : String) : Prop := List.Forall₂ SameLetter s.toList t.toList

theorem isUpper_iff : c.isUpper ↔ 65 ≤ c.toNat ∧ c.toNat ≤ 90 := decide_eq_true_iff

theorem isLower_iff : c.isLower ↔ 97 ≤ c.toNat ∧ c.toNat ≤ 122 :=
  Bool.and_eq_true_iff.trans (and_congr decide_eq_true_iff decide_eq_true_iff)

theorem isAlpha_iff : c.isAlpha ↔ c.isUpper ∨ c.isLower := Bool.or_eq_true_iff

/-- A capital letter is thirty-two places before its small one. -/
theorem toNat_toLower (c : Char) :
    c.toLower.toNat = if c.isUpper then c.toNat + 32 else c.toNat := by
  delta Char.toLower
  by_cases h : c.val ≥ 'A'.val ∧ c.val ≤ 'Z'.val
  · have hupper : c.isUpper := decide_eq_true h
    have hle : c.toNat ≤ 90 := (isUpper_iff.mp hupper).2
    have hmod : (c.toNat + 32) % 2 ^ 32 = c.toNat + 32 := Nat.mod_eq_of_lt (by omega)
    rw [if_pos hupper, dif_pos h, Char.toNat_mk, UInt32.toNat_add, Char.toNat_val]
    exact hmod
  · have hupper : ¬c.isUpper := fun hupper => h (of_decide_eq_true hupper)
    rw [if_neg hupper, dif_neg h]

theorem toLower_of_not_isUpper (h : ¬c.isUpper) : c.toLower = c := by
  rw [← Char.toNat_inj, toNat_toLower, if_neg h]

/-- **In lower case the two cases of a letter meet**, and no other characters do. -/
theorem toLower_eq_toLower_iff : c.toLower = d.toLower ↔ SameLetter c d := by
  rw [SameLetter, ← Char.toNat_inj, ← Char.toNat_inj, toNat_toLower, toNat_toLower]
  simp only [isUpper_iff]
  split <;> split <;> omega

/-- What has a lower case among the letters of ASCII is such a letter. -/
theorem isAlpha_of_isLower_toLower (h : c.toLower.isLower) : c.isAlpha := by
  rw [isAlpha_iff]
  by_cases hupper : c.isUpper
  · exact .inl hupper
  · rw [toLower_of_not_isUpper hupper] at h
    exact .inr h

/-- A letter is no blank. -/
theorem isBlank_of_isAlpha (h : c.isAlpha) : isBlank c = false := by
  rw [isAlpha_iff, isUpper_iff, isLower_iff] at h
  simp only [isBlank, blankRanges, List.any_cons, List.any_nil, Bool.or_eq_false_iff,
    Bool.and_eq_false_iff, decide_eq_false_iff_not, and_true]
  omega

/-- A letter in lower case is as blank as it was. -/
theorem isBlank_toLower (c : Char) : isBlank c.toLower = isBlank c := by
  by_cases h : c.isUpper
  · have hlower : c.toLower.isLower := by
      rw [isUpper_iff] at h
      rw [isLower_iff, toNat_toLower, if_pos (isUpper_iff.mpr h)]
      omega
    rw [isBlank_of_isAlpha (isAlpha_iff.mpr (.inr hlower)),
      isBlank_of_isAlpha (isAlpha_iff.mpr (.inl h))]
  · rw [toLower_of_not_isUpper h]

theorem toList_toLower (s : String) : s.toLower.toList = s.toList.map Char.toLower :=
  String.toList_map

/-- A letter that has been lowered is not lowered again. -/
theorem toLower_toLower (s : String) : s.toLower.toLower = s.toLower := by
  have hchar : Char.toLower ∘ Char.toLower = Char.toLower := by
    funext c
    delta Char.toLower
    grind
  rw [← String.toList_inj, toList_toLower, toList_toLower, List.map_map, hchar]

/-- Texts differ in case alone exactly if they are the same in lower case. -/
theorem recased_iff : Recased s t ↔ s.toLower = t.toLower := by
  rw [← String.toList_inj, toList_toLower, toList_toLower, ← List.forall₂_eq_eq_eq,
    List.forall₂_map_left_iff, List.forall₂_map_right_iff]
  simp only [toLower_eq_toLower_iff]
  rfl

/-- Trimming does not see the case of letters. -/
theorem trim_toLower (s : String) : trim s.toLower = (trim s).toLower := by
  have hblank : isBlank ∘ Char.toLower = isBlank := funext isBlank_toLower
  rw [← String.toList_inj, toList_toLower, toList_trim, toList_trim, toList_toLower, trimEnd,
    trimEnd, List.dropWhile_map, ← List.map_reverse, List.dropWhile_map, List.map_reverse, hblank]

/-- Letters in lower case tell how long a text is, so they tell whether anything was dropped. -/
theorem toLower_trim_eq_iff : (trim s).toLower = s.toLower ↔ trim s = s := by
  refine ⟨fun h => ?_, fun h => by rw [h]⟩
  have hlength : ((trim s).map Char.toLower).length = (s.map Char.toLower).length :=
    congrArg String.length h
  rw [String.length_map, String.length_map, ← String.length_toList, ← String.length_toList]
    at hlength
  exact String.toList_inj.mp ((sublist_trim s).eq_of_length hlength)

/-! ## Spellings -/

/-- **Two spellings of one text**: from one to the other lead blanks put around a text or taken
away, and letters put into their other case. -/
def Respelled : String → String → Prop := Relation.EqvGen fun s t => Padded s t ∨ Recased s t

/-- **The folded form tells the spellings of a text** from all other texts. -/
theorem respelled_iff : Respelled s t ↔ folded s = folded t := by
  constructor
  · intro h
    induction h with
    | rel s t h =>
      rcases h with hpadded | hrecased
      · rw [folded, folded, hpadded.trim_eq]
      · rw [folded, folded, ← trim_toLower, ← trim_toLower, recased_iff.mp hrecased]
    | refl s => rfl
    | symm s t _ ih => exact ih.symm
    | trans s t u _ _ ihst ihtu => exact ihst.trans ihtu
  · intro h
    have hpadded (s : String) : Respelled (trim s) s := .rel _ _ (.inl (padded_trim s))
    have hrecased : Respelled (trim s) (trim t) := .rel _ _ (.inr (recased_iff.mpr h))
    exact ((hpadded s).symm.trans _ _ _ hrecased).trans _ _ _ (hpadded t)

/-- A text of small letters is its own folded form. -/
theorem folded_of_isLower (h : ∀ c ∈ s.toList, c.isLower) : folded s = s := by
  have hblank : ∀ c ∈ s.toList, isBlank c = false := fun c hc =>
    isBlank_of_isAlpha (isAlpha_iff.mpr (.inr (h c hc)))
  have htight : Tight s := ⟨fun c hc => hblank c (List.mem_of_mem_head? hc),
    fun c hc => hblank c (List.mem_of_getLast? hc)⟩
  have hlower : ∀ c ∈ s.toList, c.toLower = c := fun c hc => by
    refine toLower_of_not_isUpper fun hupper => ?_
    have hc := isLower_iff.mp (h c hc)
    have hc' := isUpper_iff.mp hupper
    omega
  rw [folded, htight.trim_eq, ← String.toList_inj, toList_toLower]
  exact (List.map_congr_left hlower).trans (List.map_id _)

end SelectQuery.Text
