import SelectQuery.Dialect.Registry
import SelectQuery.Proofs.Spelling

/-!
# Proofs/Registration — a registry knows what was registered last

A registry holds the dialects of its history, each under its name in lower case.  All that it
answers goes through what is **known** under a key (`Registry.known`), and that is the dialect of
the history that was **latest** registered under it (`Registry.known_history`): registering one
dialect more changes one key, so the run is a fold over `known_register`.

A name is looked up without the blanks around it, but a dialect is registered with them.  So a
dialect is found by its own name exactly if there are none (`Registry.own_name_found_iff`).
-/

namespace SelectQuery

/-- The dialect that comes last among those with a name. -/
def latest? (history : List Dialect) (key : String) : Option Dialect :=
  history.reverse.find? fun d => d.name.toLower == key

section Latest

variable {xs : List Dialect} {key : String} {d : Dialect}

/-- Of two registrations the later one counts. -/
theorem latest?_append (xs ys : List Dialect) (key : String) :
    latest? (xs ++ ys) key = (latest? ys key).or (latest? xs key) := by
  rw [latest?, List.reverse_append, List.find?_append]
  rfl

theorem latest?_cons (d : Dialect) (xs : List Dialect) (key : String) :
    latest? (d :: xs) key =
      (latest? xs key).or (if d.name.toLower = key then some d else none) := by
  rw [latest?, List.reverse_cons, List.find?_append, List.find?_singleton]
  simp only [beq_iff_eq]
  rfl

/-- A dialect is found under its own name only. -/
theorem toLower_of_latest? (h : latest? xs key = some d) : d.name.toLower = key := by
  simpa using List.find?_some h

/-- Two neighbours with different names may change places. -/
theorem latest?_swap {d e : Dialect} (h : d.name.toLower ≠ e.name.toLower) (xs ys : List Dialect)
    (key : String) : latest? (xs ++ d :: e :: ys) key = latest? (xs ++ e :: d :: ys) key := by
  have hpair : latest? (d :: e :: ys) key = latest? (e :: d :: ys) key := by
    simp only [latest?_cons, Option.or_assoc]
    by_cases hd : d.name.toLower = key
    · rw [if_pos hd, if_neg fun he => h (hd.trans he.symm)]
      rfl
    · rw [if_neg hd, Option.or_none]
      rfl
  rw [latest?_append, latest?_append, hpair]

/-- There is one exactly if some dialect has the key, in lower case. -/
theorem latest?_isSome : (latest? xs key).isSome ↔ ∃ d ∈ xs, d.name.toLower = key := by
  simp [latest?, List.find?_isSome]

end Latest

namespace Registry

/-- The registry after registrations. -/
def registerAll (r : Registry) (ds : List Dialect) : Registry := (ds.foldlM register r).value

/-- What is known under a key. -/
def known (r : Registry) (key : String) : Option Dialect := r.dialects[key]?

/-- The registries to start with. -/
inductive Start where
  | empty
  | builtIn
  deriving DecidableEq, Repr

/-- The registry to start with. -/
def Start.registry : Start → Registry
  | empty => {}
  | builtIn => Registry.builtIn.value

/-- The dialects that it has been made of. -/
def Start.dialects : Start → List Dialect
  | empty => []
  | builtIn => Dialect.builtIn

variable (r : Registry) (d : Dialect) (ds : List Dialect) (key : String)

theorem registerAll_cons : r.registerAll (d :: ds) = (r.register d).value.registerAll ds := by
  rw [registerAll, List.foldlM_cons, Traced.value_bind]
  rfl

/-- **Registering a dialect changes what is known under its name**, and nothing else. -/
theorem known_register :
    (r.register d).value.known key = if d.name.toLower = key then some d else r.known key := by
  change (r.dialects.insert d.name.toLower d)[key]? = _
  rw [Std.TreeMap.getElem?_insert]
  simp only [Std.compare_eq_iff_eq]
  rfl

/-- **What registrations leave**: the latest of them under a key, else what was there. -/
theorem known_registerAll :
    (r.registerAll ds).known key = (latest? ds key).or (r.known key) := by
  induction ds generalizing r with
  | nil => rfl
  | cons d ds ih =>
    rw [registerAll_cons, ih, known_register, latest?_cons, Option.or_assoc]
    split <;> rfl

/-- A registry starts with the latest of its first dialects. -/
theorem known_start (start : Start) : start.registry.known key = latest? start.dialects key := by
  cases start with
  | empty => rfl
  | builtIn => exact (known_registerAll {} Dialect.builtIn key).trans (Option.or_none)

/-- **What is known is what was registered last.** -/
theorem known_history (start : Start) :
    (start.registry.registerAll ds).known key = latest? (start.dialects ++ ds) key := by
  rw [known_registerAll, known_start, latest?_append]

/-! ## What a registry answers -/

variable {r r' : Registry}

/-- A dialect is looked up by its folded name; the fault has the name as it was asked for. -/
theorem get_eq (r : Registry) (name : String) :
    r.get name = match r.known (Text.folded name) with
      | some d => .ok d
      | none => .error (.unknownDialect name) := rfl

/-- A dialect that is found is the one that is known by the folded name. -/
theorem get_eq_ok {name : String} {d : Dialect} :
    r.get name = .ok d ↔ r.known (Text.folded name) = some d := by
  rw [get_eq]
  cases r.known (Text.folded name) <;> simp

theorem contains_eq (r : Registry) (name : String) :
    r.contains name = (r.known (Text.folded name)).isSome :=
  Std.TreeMap.contains_eq_isSome_getElem?

/-- A registry contains what can be looked up. -/
theorem contains_iff {name : String} : r.contains name = true ↔ ∃ d, r.get name = .ok d := by
  simp only [get_eq_ok, contains_eq, Option.isSome_iff_exists]

/-- A text that is not contained finds no dialect. -/
theorem get_of_not_contains {name : String} (h : r.contains name = false) :
    r.get name = .error (.unknownDialect name) := by
  have hnone : r.known (Text.folded name) = none := by simpa [contains_eq] using h
  rw [get_eq, hnone]

/-- There is a provider for every dialect that can be looked up. -/
theorem exists_provider {name : String} :
    (∃ p, r.provider name = .ok p) ↔ ∃ d, r.get name = .ok d := by
  rw [provider]
  cases r.get name <;> simp [Except.map]

theorem exists_providerFor {s : Settings} :
    (∃ p, r.providerFor s = .ok p) ↔ ∃ d, r.get s.dialect = .ok d := by
  rw [providerFor, provider]
  cases r.get s.dialect <;> simp [Except.map]

/-- The provider that settings ask for is bound to their dialect and their ceiling. -/
theorem of_providerFor {s : Settings} {p : Provider} (h : r.providerFor s = .ok p) :
    r.get s.dialect = .ok p.dialect ∧ p.maxLimit = s.maxLimit := by
  rw [providerFor, provider] at h
  cases hget : r.get s.dialect with
  | error fault => simp [hget, Except.map] at h
  | ok d =>
    rw [hget] at h
    cases h
    exact ⟨rfl, rfl⟩

/-- The names are the keys by which something is known. -/
theorem mem_names {x : String} : x ∈ r.names ↔ ∃ d, r.known x = some d := by
  rw [names, Std.TreeMap.mem_keys, Std.TreeMap.mem_iff_isSome_getElem?, Option.isSome_iff_exists]
  rfl

/-- The names are in ascending order, each of them once. -/
theorem pairwise_names (r : Registry) : r.names.Pairwise (· < ·) := by
  have hkeys : r.dialects.keys.Pairwise fun x y => compare x y = .lt := Std.TreeMap.ordered_keys
  exact hkeys.imp fun h => compareOfLessAndEq_eq_lt.mp h

/-- **Two registries answer alike.** -/
structure SameAnswers (r r' : Registry) : Prop where
  get : ∀ name, r.get name = r'.get name
  contains : ∀ name, r.contains name = r'.contains name
  provider : ∀ name, r.provider name = r'.provider name
  providerFor : ∀ s, r.providerFor s = r'.providerFor s
  names : r.names = r'.names

/-- Nothing is answered but what is known. -/
theorem SameAnswers.of_known (h : ∀ key, r.known key = r'.known key) : SameAnswers r r' := by
  have hget : ∀ name, r.get name = r'.get name := fun name => by rw [get_eq, get_eq, h]
  have hprovider : ∀ name, r.provider name = r'.provider name := fun name => by
    rw [Registry.provider, Registry.provider, hget]
  refine ⟨hget, fun name => ?_, hprovider, fun s => ?_, ?_⟩
  · exact Bool.eq_iff_iff.mpr (by rw [contains_iff, contains_iff, hget])
  · rw [Registry.providerFor, Registry.providerFor, hprovider]
  · exact (Std.TreeMap.Equiv.of_forall_constGet?_eq h).keys_eq

/-- **Lookups follow the last registration.**  After any registrations a text finds the dialect that
was registered last under the text's name, if any was; the names that are listed are those of all
dialects of the history; and registrations under different names may change places. -/
theorem lookups_follow_registrations (start : Start) (ds : List Dialect) :
    let r := start.registry.registerAll ds
    let history := start.dialects ++ ds
    (∀ n, r.get n = match latest? history (Text.trim n).toLower with
      | some d => .ok d
      | none => .error (.unknownDialect n)) ∧
    (∀ n, r.contains n = true ↔ ∃ d, r.get n = .ok d) ∧
    (∀ n, (∃ p, r.provider n = .ok p) ↔ ∃ d, r.get n = .ok d) ∧
    (∀ s : Settings, (∃ p, r.providerFor s = .ok p) ↔ ∃ d, r.get s.dialect = .ok d) ∧
    (∀ (s : Settings) p, r.providerFor s = .ok p →
      r.get s.dialect = .ok p.dialect ∧ p.maxLimit = s.maxLimit) ∧
    r.names.Pairwise (· < ·) ∧
    (∀ x, x ∈ r.names ↔ ∃ d ∈ history, d.name.toLower = x) ∧
    ∀ before after d e, d.name.toLower ≠ e.name.toLower →
      SameAnswers (start.registry.registerAll (before ++ d :: e :: after))
        (start.registry.registerAll (before ++ e :: d :: after)) := by
  intro r history
  have hknown : ∀ key, r.known key = latest? history key := fun key => known_history ds key start
  refine ⟨fun n => ?_, fun _ => contains_iff, fun _ => exists_provider, fun _ => exists_providerFor,
    fun _ _ => of_providerFor, r.pairwise_names, fun x => ?_, fun before after d e hne => ?_⟩
  · rw [get_eq, hknown]
    rfl
  · rw [mem_names, hknown, ← Option.isSome_iff_exists, latest?_isSome]
  · refine .of_known fun key => ?_
    rw [known_history, known_history, ← List.append_assoc, ← List.append_assoc, latest?_swap hne]

end Registry

/-- A dialect that takes the place of a built-in one. -/
def Dialect.usurper : Dialect := { Dialect.postgresql with name := "MySQL" }

/-- A dialect whose name has a letter that is not lowered. -/
def Dialect.umlaut : Dialect := { Dialect.sqlite with name := "\u00c4BC" }

theorem Registry.usurper_found :
    let r := Start.builtIn.registry.registerAll [.umlaut, .usurper]
    r.get "\u2003mYSQL " = .ok .usurper ∧
      (∃ p, r.providerFor { dialect := "mysql", maxLimit := some 3 } = .ok p ∧
        r.get "mysql" = .ok p.dialect ∧ p.maxLimit = some 3) ∧
      "\u00c4bc" ∈ r.names ∧
      Dialect.umlaut.name.toLower ≠ Dialect.usurper.name.toLower ∧
      SameAnswers r (Start.builtIn.registry.registerAll [.usurper, .umlaut]) := by
  obtain ⟨hget, -, -, hprovider, hbound, -, hnames, hswap⟩ :=
    lookups_follow_registrations .builtIn [.umlaut, .usurper]
  let s : Settings := { dialect := "mysql", maxLimit := some 3 }
  have hlatest : latest? (Start.builtIn.dialects ++ [.umlaut, .usurper]) "mysql" =
      some .usurper := by
    have hname : Dialect.usurper.name.toLower = "mysql" := by decide +kernel
    rw [latest?_append, latest?_cons, latest?_cons, if_pos hname]
    rfl
  have hfound (n : String) (hn : (Text.trim n).toLower = "mysql") :=
    (hget n).trans (by rw [hn, hlatest])
  have hdifferent : Dialect.umlaut.name.toLower ≠ Dialect.usurper.name.toLower := by
    decide +kernel
  obtain ⟨p, hp⟩ := (hprovider s).mpr ⟨_, hfound "mysql" (by decide +kernel)⟩
  exact ⟨hfound _ (by decide +kernel), ⟨p, hp, hbound s p hp⟩,
    (hnames _).mpr ⟨.umlaut, by simp, by decide +kernel⟩, hdifferent,
    hswap [] [] _ _ hdifferent⟩

/-! ## Names with blanks around them -/

namespace Registry

/-- A dialect is known under a key of its history only. -/
theorem toLower_of_known {start : Start} {ds : List Dialect} {key : String} {d : Dialect}
    (h : (start.registry.registerAll ds).known key = some d) : d.name.toLower = key :=
  toLower_of_latest? (known_history ds key start ▸ h)

/-- **A dialect is found by its own name exactly if no blanks stand around it.**  Right after its
registration a dialect is found if its name is trimmed, and else at best another one is, registered
under the trimmed name; and of the names that are listed those find the dialect registered under
them that are trimmed. -/
theorem own_name_found_iff (start : Start) (ds : List Dialect) :
    let r := start.registry.registerAll ds
    let history := start.dialects ++ ds
    (∀ d, (r.register d).value.get d.name = .ok d ↔ Text.trim d.name = d.name) ∧
    (∀ d, (r.register d).value.contains d.name = true ↔ Text.trim d.name = d.name ∨
      ∃ e ∈ history, e.name.toLower = (Text.trim d.name).toLower) ∧
    ∀ x ∈ r.names, ∃ e, latest? history x = some e ∧ (r.get x = .ok e ↔ Text.trim x = x) := by
  intro r history
  have hfolded (d : Dialect) : d.name.toLower = Text.folded d.name ↔ Text.trim d.name = d.name :=
    eq_comm.trans Text.toLower_trim_eq_iff
  refine ⟨fun d => ?_, fun d => ?_, fun x hx => ?_⟩
  · rw [get_eq_ok, known_register, ← hfolded]
    split
    · next h => simp [h]
    · next h => exact ⟨toLower_of_known, fun h' => absurd h' h⟩
  · simp only [contains_iff, get_eq_ok, known_register, ← hfolded]
    split
    · next h => simp [h]
    · next h =>
      rw [or_iff_right h, ← Option.isSome_iff_exists, known_history]
      exact latest?_isSome
  · obtain ⟨e, he⟩ := mem_names.mp hx
    have hname : e.name.toLower = x := toLower_of_known he
    have hlower : x.toLower = x := by rw [← hname, Text.toLower_toLower]
    refine ⟨e, (known_history ds x start).symm.trans he, fun h => ?_, fun h => ?_⟩
    · have hkey : e.name.toLower = Text.folded x := toLower_of_known (get_eq_ok.mp h)
      exact Text.toLower_trim_eq_iff.mp (hkey.symm.trans (hname.trans hlower.symm))
    · rw [get_eq_ok, Text.folded, h, hlower]
      exact he

end Registry

/-- A dialect with a blank before its name. -/
def Dialect.padded : Dialect := { Dialect.postgresql with name := " oracle" }

theorem Registry.padded_found_never :
    let r := Start.empty.registry.registerAll [.padded]
    (¬(r.register .padded).value.get " oracle" = .ok .padded) ∧
      (r.register .usurper).value.get "MySQL" = .ok .usurper ∧
      " oracle" ∈ r.names ∧
      ∃ e, latest? [.padded] " oracle" = some e ∧ ¬r.get " oracle" = .ok e := by
  intro r
  obtain ⟨hget, -, hnames⟩ := own_name_found_iff .empty [.padded]
  have htrim : Text.trim " oracle" ≠ " oracle" := by decide +kernel
  have hlisted : " oracle" ∈ r.names := by decide +kernel
  obtain ⟨e, he, hfound⟩ := hnames _ hlisted
  exact ⟨fun h => htrim ((hget .padded).mp h), (hget .usurper).mpr (by decide +kernel), hlisted,
    e, he, fun h => htrim (hfound.mp h)⟩

/-- **A dialect may be listed and not be found**: the blank before its name is kept by registration
and dropped by look-up. -/
theorem Registry.padded_listed_not_found :
    let r := (({} : Registry).register .padded).value
    r.names = [" oracle"] ∧ r.contains Dialect.padded.name = false ∧
      r.get Dialect.padded.name = .error (.unknownDialect " oracle") := by
  intro r
  have hcontains : r.contains Dialect.padded.name = false := by decide +kernel
  exact ⟨by decide +kernel, hcontains, get_of_not_contains hcontains⟩

end SelectQuery
