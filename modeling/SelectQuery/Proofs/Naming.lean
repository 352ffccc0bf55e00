import SelectQuery.Proofs.Report
import SelectQuery.Proofs.Spelling

/-!
# Proofs/Naming — operators and directions named by texts

An operator and a direction have a tag each, and a text names the word whose tag it spells.  This is
one statement about any set of words with tags (`ReadsTags`), and two properties of the tags carry
it: no two words share one, so a search finds the same word in whatever order it goes; and a tag is
made of small letters, so the texts that name a word are the spellings of its tag and hold nothing
but blanks and letters of ASCII.
-/

namespace SelectQuery

/-- The name by which texts mention a direction. -/
def Order.tag : Order → String
  | .asc => "asc"
  | .desc => "desc"

section Tags

variable {α : Type} {tag : α → String} {unknown : String → Fault} {parse : String → Except Fault α}

/-- **Texts are read by tags.**  A text that is the tag of a word once it is trimmed and in lower
case gives this word, and any other text is refused. -/
structure ReadsTags (tag : α → String) (unknown : String → Fault)
    (parse : String → Except Fault α) : Prop where
  /-- A text gives the word whose tag it is, trimmed and in lower case. -/
  ok_iff : ∀ s a, parse s = .ok a ↔ (Text.trim s).toLower = tag a
  /-- A text that is no tag is refused, and the fault has it as it came. -/
  error_iff : ∀ s fault, parse s = .error fault ↔
    fault = unknown s ∧ ∀ a, (Text.trim s).toLower ≠ tag a
  /-- A text gives one word at most. -/
  unique : ∀ s a b, (Text.trim s).toLower = tag a → (Text.trim s).toLower = tag b → a = b
  /-- Where words are searched for a tag that agrees but for case, their order does not count. -/
  search : ∀ as : List α, (∀ a, a ∈ as) → ∀ s,
    as.find? (fun a => (tag a).toLower == (Text.trim s).toLower) = (parse s).toOption
  /-- The texts that give a word are the spellings of its tag. -/
  ok_iff_respelled : ∀ s a, parse s = .ok a ↔ Text.Respelled (tag a) s
  /-- Spellings of one text give one word, or none of them gives any. -/
  respelled : ∀ s t, Text.Respelled s t → (parse s).toOption = (parse t).toOption
  /-- A text that gives a word is made of blanks and letters of ASCII. -/
  letters : ∀ s a, parse s = .ok a → ∀ c ∈ s.toList, Text.isBlank c ∨ c.isAlpha

theorem toOption_eq_some {r : Except Fault α} {a : α} : r.toOption = some a ↔ r = .ok a := by
  cases r <;> simp [Except.toOption]

/-- Among words with names of their own, a search finds the one with the name. -/
theorem find?_key_eq_some {key : α → String} (hkey : Function.Injective key) {as : List α}
    (hall : ∀ a, a ∈ as) {name : String} {a : α} :
    as.find? (fun b => key b == name) = some a ↔ name = key a := by
  constructor
  · intro h
    have hb : key a = name := by simpa using List.find?_some h
    exact hb.symm
  · rintro rfl
    have hfound : (as.find? fun b => key b == key a).isSome :=
      List.find?_isSome.mpr ⟨a, hall a, beq_self_eq_true _⟩
    obtain ⟨b, hb⟩ := Option.isSome_iff_exists.mp hfound
    have hsame : key b = key a := by simpa using List.find?_some hb
    rw [hb, hkey hsame]

/-- A text whose folded form is made of letters is made of blanks and letters. -/
theorem isAlpha_of_folded {s name : String} (h : Text.folded s = name)
    (hname : ∀ c ∈ name.toList, c.isLower) : ∀ c ∈ s.toList, Text.isBlank c ∨ c.isAlpha := by
  intro c hc
  obtain ⟨before, after, hbefore, hafter, hs⟩ := Text.padded_trim s
  rw [hs, List.mem_append, List.mem_append] at hc
  rcases hc with (hc | hc) | hc
  · exact .inl (hbefore c hc)
  · have hmem : c.toLower ∈ name.toList := by
      rw [← h, Text.folded, Text.toList_toLower]
      exact List.mem_map_of_mem hc
    exact .inr (Text.isAlpha_of_isLower_toLower (hname _ hmem))
  · exact .inl (hafter c hc)

/-- **What finds words by the folded forms of texts reads texts by tags**, if the tags are different
and of small letters. -/
theorem ReadsTags.of_ofText? {ofText? : String → Option α} (htag : Function.Injective tag)
    (hlower : ∀ a, ∀ c ∈ (tag a).toList, c.isLower)
    (hsome : ∀ s a, ofText? s = some a ↔ Text.folded s = tag a)
    (hparse : ∀ s, parse s = (ofText? s).elim (.error (unknown s)) .ok) :
    ReadsTags tag unknown parse := by
  have hfolded (a : α) : Text.folded (tag a) = tag a := Text.folded_of_isLower (hlower a)
  have hcase (a : α) : (tag a).toLower = tag a := by
    rw [← hfolded a, Text.folded, Text.toLower_toLower]
  have hok (s : String) (a : α) : parse s = .ok a ↔ Text.folded s = tag a := by
    rw [← hsome, hparse]
    cases ofText? s <;> simp
  refine { ok_iff := hok
           error_iff := fun s fault => ?_
           unique := fun s a b ha hb => htag (ha.symm.trans hb)
           search := fun as hall s => ?_
           ok_iff_respelled := fun s a => ?_
           respelled := fun s t h => ?_
           letters := fun s a h => isAlpha_of_folded ((hok s a).mp h) (hlower a) }
  · rw [hparse]
    cases hs : ofText? s with
    | some a =>
      refine ⟨fun h => ?_, fun h => absurd ((hsome s a).mp hs) (h.2 a)⟩
      cases h
    | none =>
      have hnone (a : α) : (Text.trim s).toLower ≠ tag a := fun ha => by
        have hfound := (hsome s a).mpr ha
        rw [hs] at hfound
        cases hfound
      simp [hnone, eq_comm]
  · simp only [hcase]
    refine Option.ext fun a => ?_
    rw [find?_key_eq_some htag hall, toOption_eq_some, hok]
    rfl
  · rw [hok, Text.respelled_iff, hfolded, eq_comm]
  · refine Option.ext fun a => ?_
    rw [toOption_eq_some, toOption_eq_some, hok, hok, Text.respelled_iff.mp h]

end Tags

/-! ## Operators and directions -/

namespace Operator

/-- The list of operators is complete. -/
theorem mem_all (op : Operator) : op ∈ all := by cases op <;> decide

/-- No two operators have one tag. -/
theorem tag_injective : Function.Injective tag := by
  have hall : ∀ a ∈ all, ∀ b ∈ all, a.tag = b.tag → a = b := by decide
  exact fun a b => hall a a.mem_all b b.mem_all

/-- Tags are in lower case. -/
theorem isLower_tag (op : Operator) : ∀ c ∈ op.tag.toList, c.isLower := by
  rw [← List.all_eq_true]
  cases op <;> decide

/-- **A text names an operator exactly if it folds to its tag.** -/
theorem ofText?_eq_some (s : String) (op : Operator) :
    ofText? s = some op ↔ Text.folded s = op.tag := find?_key_eq_some tag_injective mem_all

/-- **Operators are read by their tags.** -/
theorem readsTags : ReadsTags tag .unknownOperator parse :=
  .of_ofText? tag_injective isLower_tag ofText?_eq_some fun s => by
    rw [parse]
    cases ofText? s <;> rfl

end Operator

namespace Order

theorem tag_injective : Function.Injective tag := by
  rintro (_ | _) (_ | _) h
  · rfl
  · exact absurd h (by decide)
  · exact absurd h (by decide)
  · rfl

theorem isLower_tag (o : Order) : ∀ c ∈ o.tag.toList, c.isLower := by
  rw [← List.all_eq_true]
  cases o <;> decide

theorem ofText?_eq_some (s : String) (o : Order) :
    ofText? s = some o ↔ Text.folded s = o.tag := by
  rw [ofText?]
  by_cases hasc : Text.folded s = "asc"
  · cases o <;> simp [hasc, tag]
  · by_cases hdesc : Text.folded s = "desc"
    · cases o <;> simp [hdesc, tag]
    · cases o <;> simp [hasc, hdesc, tag]

/-- **Directions are read by their tags.** -/
theorem readsTags : ReadsTags tag .unknownOrder parse :=
  .of_ofText? tag_injective isLower_tag ofText?_eq_some fun s => by
    rw [parse]
    cases ofText? s <;> rfl

/-- **A direction is always found**: the one that the text gives, or else upwards, with a report. -/
theorem parseLenient_eq (s : String) : parseLenient s = match parse s with
    | .ok o => ⟨o, []⟩
    | .error _ => ⟨.asc, [.unrecognizedOrder s]⟩ := by
  rw [parseLenient, parse]
  cases ofText? s <;> rfl

/-- Read leniently, a text that names no direction is ascending. -/
theorem value_parseLenient (s : String) :
    (parseLenient s).value = (parse s).toOption.getD .asc := by
  rw [parseLenient_eq]
  cases parse s <;> rfl

/-- There is a report exactly if it names none. -/
theorem events_parseLenient_eq_nil (s : String) :
    (parseLenient s).events = [] ↔ (parse s).toOption.isSome := by
  rw [parseLenient_eq]
  cases parse s <;> simp [Except.toOption]

end Order

/-- **Operators and directions are read by their tags.**  Blanks at the ends of a text, which
trimming takes away, and the case of letters of ASCII do not count; everything else does.  Where a
direction has to be found, it is the one that the text gives, and upwards if it gives none, which is
what is reported and all that is. -/
theorem tags_parsed_exactly :
    (∀ s t, Text.trim s = t ↔ Text.Padded t s ∧ Text.Tight t) ∧
    ReadsTags Operator.tag .unknownOperator Operator.parse ∧
    ReadsTags Order.tag .unknownOrder Order.parse ∧
    (∀ s, Order.parseLenient s = match Order.parse s with
      | .ok o => ⟨o, []⟩
      | .error _ => ⟨.asc, [.unrecognizedOrder s]⟩) ∧
    (∀ s t, Text.Respelled s t →
      (Order.parseLenient s).value = (Order.parseLenient t).value ∧
      ((Order.parseLenient s).events = [] ↔ (Order.parseLenient t).events = [])) ∧
    ∀ s, (Event.unrecognizedOrder s).shown =
      ("WARN", "unrecognized order direction, using ASC", [("direction", s)]) := by
  refine ⟨fun s t => Text.trim_eq_iff, Operator.readsTags, Order.readsTags, Order.parseLenient_eq,
    fun s t h => ?_, fun _ => rfl⟩
  have hsame : (Order.parse s).toOption = (Order.parse t).toOption :=
    Order.readsTags.respelled s t h
  rw [Order.value_parseLenient, Order.value_parseLenient, Order.events_parseLenient_eq_nil,
    Order.events_parseLenient_eq_nil, hsame]
  exact ⟨rfl, Iff.rfl⟩

/-- The sign for kelvin and the long `s` are letters, but not of ASCII, and no cases of others. -/
theorem spellings_parsed :
    Operator.parse "\u2003GtE\n" = .ok .gte ∧
    (∀ c ∈ "\u2003GtE\n".toList, Text.isBlank c ∨ c.isAlpha) ∧
    Operator.parse " li\u212ae" = .error (.unknownOperator " li\u212ae") ∧
    (Text.Respelled " GT" "gt\u3000" ∧
      (Operator.parse " GT").toOption = (Operator.parse "gt\u3000").toOption) ∧
    Operator.all.reverse.find? (fun op => op.tag.toLower == (Text.trim " IN ").toLower) =
      some .member ∧
    Order.parseLenient "\u00a0DeSc" = ⟨.desc, []⟩ ∧
    Order.parseLenient "de\u017fc" = ⟨.asc, [.unrecognizedOrder "de\u017fc"]⟩ ∧
    Text.Respelled "Up " "uP" ∧
      (Order.parseLenient "Up ").value = (Order.parseLenient "uP").value := by
  obtain ⟨-, hoperator, horder, hlenient, hspelling, -⟩ := tags_parsed_exactly
  have hgte : Operator.parse "\u2003GtE\n" = .ok .gte :=
    (hoperator.ok_iff _ _).mpr (by decide +kernel)
  have hdesc : Order.parse "\u00a0DeSc" = .ok .desc :=
    (horder.ok_iff _ _).mpr (by decide +kernel)
  have hlong : Order.parse "de\u017fc" = .error (.unknownOrder "de\u017fc") :=
    (horder.error_iff _ _).mpr ⟨rfl, fun o => by cases o <;> decide +kernel⟩
  have hrespelled {s t name : String} (hs : Text.folded s = name) (ht : Text.folded t = name) :
      Text.Respelled s t := Text.respelled_iff.mpr (hs.trans ht.symm)
  have hgt : Text.Respelled " GT" "gt\u3000" :=
    hrespelled (show _ = "gt" by decide +kernel) (by decide +kernel)
  have hup : Text.Respelled "Up " "uP" :=
    hrespelled (show _ = "up" by decide +kernel) (by decide +kernel)
  refine ⟨hgte, hoperator.letters _ _ hgte,
    (hoperator.error_iff _ _).mpr ⟨rfl, fun op => by cases op <;> decide +kernel⟩,
    ⟨hgt, hoperator.respelled _ _ hgt⟩, ?_, ?_, ?_, hup, (hspelling _ _ hup).1⟩
  · rw [hoperator.search _ (fun op => List.mem_reverse.mpr op.mem_all), toOption_eq_some]
    exact (hoperator.ok_iff _ _).mpr (by decide +kernel)
  · rw [hlenient, hdesc]
  · rw [hlenient, hlong]

end SelectQuery
