import SelectQuery.Proofs.Spacing

/-!
# Proofs/Agreement — one query, four databases

Databases differ in the quotes around names and in what placeholders look like.  Once names are
unquoted and placeholders are numbered, what is left of a statement is the same in all of them: the
draft does not depend on the database.  The exception is the page.  SQL Server asks for one in words
of its own, and an offset without a limit is written in a different way everywhere.
-/

namespace SelectQuery

/-! ## Placeholders by their numbers -/

/-- The tokens with their marks changed. -/
def Token.map {μ ν : Type} (f : μ → ν) : Token μ → Token ν
  | word s => .word s
  | name s => .name s
  | mark m => .mark (f m)

theorem Token.map_number {μ ν ξ : Type} (f : μ → ν) (g : Nat → μ) (k : Nat)
    (ts : List (Token ξ)) :
    (Token.number g k ts).map (Token.map f) = Token.number (f ∘ g) k ts := by
  induction ts generalizing k with
  | nil => rfl
  | cons t ts ih => cases t <;> simp [Token.number, Token.map, ih]

/-- Numbering looks at which tokens are marks, not at what the marks carry. -/
theorem Token.number_number {μ ν ξ : Type} (f : Nat → ν) (g : Nat → μ) (k l : Nat)
    (ts : List (Token ξ)) : Token.number f k (Token.number g l ts) = Token.number f k ts := by
  induction ts generalizing k l with
  | nil => rfl
  | cons t ts ih => cases t <;> simp [Token.number, ih]

namespace Lexicon

/-- The number that a placeholder shows. -/
def shown (L : Lexicon) (placeholder : String) : Nat :=
  Nat.ofDigitChars 10 (placeholder.toList.drop (L.sigilRest.length + 1)) 0

/-- Placeholders by the numbers that they show or, where they show none, by their positions. -/
def ordinals (L : Lexicon) (ts : List (Token String)) : List (Token Nat) :=
  if L.numbered then ts.map (Token.map L.shown) else Token.number id 1 ts

variable {L : Lexicon} {d : Dialect}

theorem shown_placeholder (hd : L.Describes d) (hn : L.numbered = true) (k : Nat) :
    L.shown (d.placeholder k) = k := by
  rw [shown, hd.placeholder, if_pos hn, List.drop_succ_cons, List.drop_left]
  exact Nat.ofDigitChars_ten_toDigits

/-- **The numbers are those in which the marks stand**, shown or not. -/
theorem ordinals_number {μ : Type} (hd : L.Describes d) (ts : List (Token μ)) :
    L.ordinals (Token.number d.placeholder 1 ts) = Token.number id 1 ts := by
  rw [ordinals]
  split
  · next hn =>
    have hshown : L.shown ∘ d.placeholder = id := funext (shown_placeholder hd hn)
    rw [Token.map_number, hshown]
  · exact Token.number_number _ _ _ _ ts

end Lexicon

/-! ## Agreement -/

namespace Database

/-- The tokens of a text with names unquoted and placeholders by their numbers; none if a name is
never closed. -/
def outline (b : Database) (text : String) : Option (List (Token Nat)) :=
  (b.lexicon.lex text.toList).map b.lexicon.ordinals

theorem Reads.outline_eq {b : Database} {s : Statement} {ts : List (Token Value)}
    (h : b.Reads s ts) : b.outline s.text = some (Token.number id 1 ts) := by
  rw [outline, h.lex, Option.map_some, Lexicon.ordinals_number b.describes]

/-- **Two databases agree** if both refuse for the same fault, or both have the same arguments and
texts of the same outline. -/
inductive Agree (a b : Database) : Except Fault Statement → Except Fault Statement → Prop
  | refused (fault : Fault) : Agree a b (.error fault) (.error fault)
  | written {s t : Statement} (args : s.args = t.args) {ts : List (Token Nat)}
      (left : a.outline s.text = some ts) (right : b.outline t.text = some ts) :
      Agree a b (.ok s) (.ok t)

/-- **One draft agrees with itself on any two databases.** -/
theorem agree_statement (a b : Database) {x : Draft}
    (hs : x.fault? = none → wellSpaced x.pieces = true) :
    Agree a b (x.statement a.dialect) (x.statement b.dialect) := by
  cases hf : x.fault? with
  | some fault =>
    simp only [Draft.statement, hf]
    exact .refused fault
  | none =>
    obtain ⟨-, hleft⟩ := reads_draft hs (b := a) (by rw [Draft.statement, hf])
    obtain ⟨-, hright⟩ := reads_draft hs (b := b) (by rw [Draft.statement, hf])
    simp only [Draft.statement, hf]
    exact .written rfl hleft.outline_eq hright.outline_eq

/-- MySQL and SQLite spell alike. -/
theorem statement_mysql_sqlite (x : Draft) :
    x.statement mysql.dialect = x.statement sqlite.dialect := by
  have hspell := spell_congr (d := mysql.dialect) (e := sqlite.dialect) rfl rfl 1 x.pieces
  rw [Draft.statement, Draft.statement, hspell]

end Database

namespace Query

/-- The query on another database. -/
def on (q : Query) (b : Database) : Query := { q with dialect := b.dialect }

/-- The ceiling lowers a limit and sets none. -/
theorem effectiveLimit_isSome (q : Query) :
    q.effectiveLimit.value.isSome = q.page.limit.isSome := by
  rw [effectiveLimit]
  split
  · next hlimit _ =>
    rw [hlimit]
    split <;> rfl
  · rfl

end Query

namespace Database

variable {a b : Database} {q : Query}

theorem rows_congr (ho : q.ordersDraft a.fallbackPieces = q.ordersDraft b.fallbackPieces)
    (hp : a.pagePieces q.effectivePage = b.pagePieces q.effectivePage) : a.rows q = b.rows q := by
  rw [rows, rows, pageDraft, pageDraft, ho, hp]

/-- Without a page all databases have the same rows. -/
theorem rows_eq_of_isEmpty (a b : Database) (h : q.page.isEmpty = true) : a.rows q = b.rows q := by
  have hlimit : q.effectivePage.limit = none := by
    have hsome := q.effectiveLimit_isSome
    simp_all [Page.isEmpty, Query.effectivePage]
  have hoffset : q.effectivePage.offset = none := by
    simp_all [Page.isEmpty, Query.effectivePage]
  have hpage (c : Database) : c.pagePieces q.effectivePage = [] := by
    cases c <;> simp [pagePieces, limitOffsetPieces, offsetFetchPieces, hlimit, hoffset]
  have horders (c : Database) : q.ordersDraft c.fallbackPieces = q.ordersDraft [] := by
    simp [Query.ordersDraft, h]
  exact rows_congr ((horders a).trans (horders b).symm) ((hpage a).trans (hpage b).symm)

/-- What stands for no limit is only written before an offset without one. -/
theorem limitOffsetPieces_eq (unlimited : Option (List Piece)) {p : Page}
    (h : p.limit = none → p.offset = none) :
    limitOffsetPieces unlimited p = limitOffsetPieces none p := by
  obtain ⟨_ | n, _ | m⟩ := p
  · rfl
  · cases h rfl
  · rfl
  · rfl

/-- With a limit, or without an offset, all databases but SQL Server have the same rows. -/
theorem rows_eq_of_limit (ha : a ≠ sqlserver) (hb : b ≠ sqlserver)
    (h : q.page.limit = none → q.page.offset = none) : a.rows q = b.rows q := by
  have hfallback {c : Database} (hc : c ≠ sqlserver) : c.fallbackPieces = [] := by
    cases c <;> first | rfl | exact absurd rfl hc
  have hlimit : q.effectivePage.limit = none → q.effectivePage.offset = none := fun hnone => by
    refine h (Option.not_isSome_iff_eq_none.mp ?_)
    rw [← q.effectiveLimit_isSome, Option.not_isSome_iff_eq_none]
    exact hnone
  have hpage {c : Database} (hc : c ≠ sqlserver) :
      c.pagePieces q.effectivePage = limitOffsetPieces none q.effectivePage := by
    rw [← limitOffsetPieces_eq c.unlimited hlimit]
    cases c <;> first | rfl | exact absurd rfl hc
  refine rows_congr ?_ ((hpage ha).trans (hpage hb).symm)
  rw [hfallback ha, hfallback hb]

/-- **Databases agree on everything but their tokens**, as long as no offset stands without a limit
and SQL Server is not asked for a page; MySQL and SQLite do not even differ in their texts. -/
theorem statements_agree (q : Query) :
    (∀ a b : Database, Agree a b (q.on a).buildCount.value (q.on b).buildCount.value) ∧
    (q.page.isEmpty = true →
      ∀ a b : Database, Agree a b (q.on a).build.value (q.on b).build.value) ∧
    ((q.page.limit = none → q.page.offset = none) →
      ∀ a b : Database, a ≠ sqlserver → b ≠ sqlserver →
        Agree a b (q.on a).build.value (q.on b).build.value) ∧
    (q.on mysql).buildCount.value = (q.on sqlite).buildCount.value ∧
    ((q.page.limit = none → q.page.offset = none) →
      (q.on mysql).build.value = (q.on sqlite).build.value) := by
  have hcount (b : Database) : (q.on b).buildCount.value = q.count.statement b.dialect :=
    Query.buildCount_value rfl
  have hbuild (b : Database) : (q.on b).build.value = (b.rows q).statement b.dialect :=
    Query.build_value rfl
  refine ⟨fun a b => ?_, fun h a b => ?_, fun h a b ha hb => ?_, ?_, fun h => ?_⟩
  · rw [hcount, hcount]
    exact agree_statement a b Query.wellSpaced_count
  · rw [hbuild, hbuild, rows_eq_of_isEmpty a b h]
    exact agree_statement a b wellSpaced_rows
  · rw [hbuild, hbuild, rows_eq_of_limit ha hb h]
    exact agree_statement a b wellSpaced_rows
  · rw [hcount, hcount, statement_mysql_sqlite]
  · have hrows : mysql.rows q = sqlite.rows q := rows_eq_of_limit (by decide) (by decide) h
    rw [hbuild, hbuild, hrows, statement_mysql_sqlite]

end Database

/-- A query for a page, whose names hold quotes and a placeholder. -/
def Query.quoted : Query where
  table := .within "a`b" "c]d"
  dialect := .mysql
  conditions := [.compare "$1" .like (.single (.ofText "x")),
    .not (.compare "\"" .member (.list [.ofText "y", .ofText "z"]))]
  page := { limit := some 10, offset := some 20 }
  ceiling := some 5

theorem Query.quoted_agree :
    (∃ s, (quoted.on .mysql).build.value = .ok s ∧ s.args.length = 3) ∧
      Database.Agree .mysql .postgresql (quoted.on .mysql).build.value
        (quoted.on .postgresql).build.value ∧
      (quoted.on .mysql).build.value = (quoted.on .sqlite).build.value ∧
      Database.Agree .mysql .sqlserver (({ quoted with page := {} } : Query).on .mysql).build.value
        (({ quoted with page := {} } : Query).on .sqlserver).build.value :=
  have hpage : quoted.page.limit = none → quoted.page.offset = none := by decide
  ⟨⟨_, rfl, rfl⟩,
    (Database.statements_agree quoted).2.2.1 hpage .mysql .postgresql (by decide) (by decide),
    (Database.statements_agree quoted).2.2.2.2 hpage,
    (Database.statements_agree { quoted with page := {} }).2.1 rfl .mysql .sqlserver⟩

end SelectQuery
