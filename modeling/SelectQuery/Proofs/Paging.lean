import SelectQuery.Proofs.Recovery
import SelectQuery.Proofs.Sections

/-!
# Proofs/Paging — the clause of a page says which page

The clause for a page is read back word by word: `Database.readPage?` takes it apart as the end of a
statement, and what it finds is the page, or the page that is written like it.  Reading has one
result, so pages with one clause are written alike, and `Database.Coincides` lists those that are:
MySQL has the greatest limit for none, SQL Server the offset zero for none, and the others tell all
pages apart.
-/

namespace SelectQuery

namespace Database

variable {b : Database} {p p' r : Page}

/-! ## Pages that are written alike -/

/-- **Pages that are written alike**: with no limit before an offset as with the greatest one, with
no offset behind a limit as with zero. -/
inductive Coincides : Database → Page → Page → Prop
  | greatest (m : UInt64) :
      Coincides mysql ⟨none, some m⟩ ⟨some 18446744073709551615, some m⟩
  | zero (n : UInt64) : Coincides sqlserver ⟨some n, none⟩ ⟨some n, some 0⟩

/-- No two pages coincide with a third. -/
theorem Coincides.left_unique (h : b.Coincides p r) (h' : b.Coincides p' r) : p = p' := by
  cases h <;> cases h' <;> rfl

/-- A page is the canonical one or coincides with it. -/
theorem canonicalPage_eq_or (b : Database) (p : Page) :
    b.canonicalPage p = p ∨ b.Coincides p (b.canonicalPage p) := by
  obtain ⟨_ | n, _ | m⟩ := p <;> cases b
  case none.some.mysql => exact .inr (.greatest m)
  case some.none.sqlserver => exact .inr (.zero n)
  all_goals exact .inl rfl

/-- Pages with one canonical page are equal or coincide. -/
theorem eq_or_coincides (h : b.canonicalPage p = b.canonicalPage p') :
    p = p' ∨ b.Coincides p p' ∨ b.Coincides p' p := by
  rcases b.canonicalPage_eq_or p with hp | hp <;> rcases b.canonicalPage_eq_or p' with hp' | hp'
  · exact .inl (hp.symm.trans (h.trans hp'))
  · exact .inr (.inr (hp ▸ h ▸ hp'))
  · exact .inr (.inl (hp' ▸ h ▸ hp))
  · exact .inl (hp.left_unique (h ▸ hp'))

/-! ## Reading a clause -/

/-- The page that a clause asks for, read as the end of a statement. -/
def readPage? (b : Database) (clause : String) : Option Page :=
  (b.read ⟨clause, []⟩).bind Reading.page

/-- The text of the clause for a page. -/
def pageText (b : Database) (p : Page) : String := fixedText (b.pagePieces p)

/-- A page adds its pieces behind a blank, or nothing. -/
theorem pieces_pageDraft (b : Database) (p : Page) :
    (b.pageDraft p).pieces = [] ∧ b.pagePieces p = [] ∨
      (b.pageDraft p).pieces = .blank :: b.pagePieces p := by
  rw [pageDraft]
  split
  · next he => exact .inl ⟨rfl, List.isEmpty_iff.mp he⟩
  · exact .inr rfl

theorem wellSpaced_pagePieces (b : Database) (p : Page) : wellSpaced (b.pagePieces p) = true := by
  have hdraft := (b.spaced_pageDraft p).1.wellSpaced
  rcases b.pieces_pageDraft p with ⟨-, h⟩ | h
  · rw [h]
    rfl
  · rw [h] at hdraft
    simpa [wellSpaced] using (Bool.and_eq_true_iff.mp hdraft).2

/-- A clause is read back token by token. -/
theorem reads_pageText (b : Database) (p : Page) :
    b.Reads ⟨b.pageText p, []⟩ (tokens (b.pagePieces p)) := by
  have hspells : Spells b.dialect 1 (b.pagePieces p) (b.pageText p) [] :=
    Spells.fixed _ (b.isFixed_pagePieces p) rfl
  refine ⟨?_, hspells.args.symm⟩
  dsimp only
  rw [← hspells.text]
  exact Lexicon.lex_spell b.describes 1 (b.wellSpaced_pagePieces p)

/-- **A clause is read as the canonical page.** -/
theorem readPage?_pageText (b : Database) (p : Page) :
    b.readPage? (b.pageText p) = some (b.canonicalPage p) := by
  have htokens : tokens (b.pageDraft p).pieces = tokens (b.pagePieces p) := by
    rcases b.pieces_pageDraft p with ⟨hdraft, hpieces⟩ | h
    · rw [hdraft, hpieces]
    · rw [h]
      rfl
  rw [readPage?, (b.reads_pageText p).read_eq, Option.bind_some, ← htokens,
    Reading.page_pageDraft]

theorem Coincides.pageText_eq (h : b.Coincides p p') : b.pageText p = b.pageText p' := by
  cases h <;> rfl

/-- **Pages have one clause** if they are equal or coincide, and only then. -/
theorem pageText_eq_iff :
    b.pageText p = b.pageText p' ↔ p = p' ∨ b.Coincides p p' ∨ b.Coincides p' p := by
  constructor
  · intro h
    have hread := b.readPage?_pageText p
    rw [h, b.readPage?_pageText p'] at hread
    exact eq_or_coincides (Option.some.inj hread).symm
  · rintro (rfl | h | h)
    · rfl
    · exact h.pageText_eq
    · exact h.pageText_eq.symm

/-- Of all rows there is nothing to say, and of no other page. -/
theorem pageText_eq_empty : b.pageText p = "" ↔ p.limit = none ∧ p.offset = none := by
  have hall : b.pageText ⟨none, none⟩ = "" := by cases b <;> rfl
  rw [← hall, pageText_eq_iff]
  constructor
  · rintro (rfl | h | h)
    · exact ⟨rfl, rfl⟩
    · cases h
    · cases h
  · obtain ⟨limit, offset⟩ := p
    rintro ⟨rfl, rfl⟩
    exact .inl rfl

/-- A clause begins with a word. -/
theorem head?_pageText (b : Database) (p : Page) : (b.pageText p).toList.head? ≠ some ' ' := by
  obtain ⟨_ | n, _ | m⟩ := p <;> cases b <;>
    simp [pageText, pagePieces, limitOffsetPieces, offsetFetchPieces, limitPieces, offsetPieces,
      unlimited, fixedText]

/-- A clause ends in ink. -/
theorem getLast?_pageText (b : Database) (p : Page) :
    (b.pageText p).toList.getLast? ≠ some ' ' := by
  by_cases hempty : b.pageText p = ""
  · rw [hempty]
    decide
  · obtain ⟨c, hc, hne⟩ := inked_pageClause (b.pageClause_eq p) hempty
    rw [pageText, hc]
    exact fun h => hne (Option.some.inj h)

/-- **A clause says which page it is for.**  Every page has one; it is empty for all rows and for
nothing else, and has no blank at either end.  A reader finds the canonical page in it, so no pages
have one clause but those that coincide. -/
theorem pages_told_apart (b : Database) (p : Page) :
    ∃ clause, b.dialect.pageClause p = .ok clause ∧
      (clause = "" ↔ p.limit = none ∧ p.offset = none) ∧
      clause.toList.head? ≠ some ' ' ∧ clause.toList.getLast? ≠ some ' ' ∧
      b.readPage? clause = some (b.canonicalPage p) ∧
      ∀ p', b.dialect.pageClause p' = .ok clause ↔
        p = p' ∨ b.Coincides p p' ∨ b.Coincides p' p := by
  refine ⟨b.pageText p, b.pageClause_eq p, pageText_eq_empty, b.head?_pageText p,
    b.getLast?_pageText p, b.readPage?_pageText p, fun p' => ?_⟩
  rw [b.pageClause_eq p', ← pageText_eq_iff, Except.ok.injEq]
  exact eq_comm

-- SQLite has a limit for none that no page has
example : Dialect.sqlite.pageClause ⟨none, some 7⟩ = .ok "LIMIT -1 OFFSET 7" := rfl

end Database

end SelectQuery
