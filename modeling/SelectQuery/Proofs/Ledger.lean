import SelectQuery.Dialect.BuiltIn
import SelectQuery.Proofs.Rendering

/-!
# Proofs/Ledger — the counter and the values keep step

Several hands write on one writer: operations by themselves, lists of items that fail halfway,
conditions for one dialect and for another.  A **run** (`Writing.Run`) is the record of what was
done: which values were pushed, and at which number the counter stood each time.  Every run extends
the text and the values, and the numbers in its record are those that come next, one for each value
(`Writing.Run.extends`); nothing in this depends on whether the run succeeds.

A session is one operation after the other, and a failure does not end it.  Its record is that of
its operations side by side, so the record of a whole session is the list of its values, numbered
from one (`Writer.numbers_follow_values`).
-/

namespace SelectQuery

/-! ## What writers gain -/

namespace Writer

theorem extend_nil (w : Writer) : w.extend "" [] = w := by
  rw [extend, String.append_empty, List.append_nil]
  rfl

/-- One gain after another is one gain. -/
theorem extend_extend (w : Writer) (s t : String) (vs us : List Value) :
    (w.extend s vs).extend t us = w.extend (s ++ t) (vs ++ us) := by
  simp only [extend, String.append_assoc, List.append_assoc, List.length_append, Nat.add_assoc]

/-- A text that is pushed is a gain without values. -/
theorem push_eq_extend (w : Writer) (s : String) : w.push s = w.extend s [] := by
  rw [push, extend, List.append_nil]
  rfl

/-- So is a space, and where there is no need for one it is an empty gain. -/
theorem space_eq_extend (w : Writer) : ∃ s, w.space = w.extend s [] := by
  rw [space]
  split
  · exact ⟨"", w.extend_nil.symm⟩
  · exact ⟨"", w.extend_nil.symm⟩
  · exact ⟨" ", w.push_eq_extend " "⟩

end Writer

namespace Writing

variable {α β : Type} {d : Dialect} {w w' w'' : Writer} {log log' : List (Value × Nat)}
  {fault : Fault}

/-! ## Runs -/

/-- **A run** of a writing on a writer: the values that are pushed on the way, each with the number
at which the counter stands, the outcome and the writer that is left.  A writing may look at the
writer, go on by what it sees, report, fail and recover; it has no other way to change the writer
than the operations. -/
inductive Run :
    {α : Type} → Writing α → Writer → List (Value × Nat) → Except Fault α → Writer → Prop
  | pure {α : Type} (a : α) (w : Writer) : Run (Pure.pure a) w [] (.ok a) w
  | fail {α : Type} (fault : Fault) (w : Writer) :
      Run (throw fault : Writing α) w [] (.error fault) w
  | look (w : Writer) : Run get w [] (.ok w) w
  | report (e : Event) (w : Writer) : Run (Writing.report e) w [] (.ok ()) w
  | push (s : String) (w : Writer) : Run (Writing.push s) w [] (.ok ()) (w.push s)
  | space (w : Writer) : Run Writing.space w [] (.ok ()) w.space
  | keyword (s : String) (w : Writer) : Run (Writing.keyword s) w [] (.ok ()) (w.keyword s)
  | name (d : Dialect) (s : String) (w : Writer) :
      Run (Writing.name d s) w [] (.ok ()) (w.name d s)
  | value (d : Dialect) (v : Value) (w : Writer) :
      Run (Writing.value d v) w [(v, w.next)] (.ok w.next) (w.value d v)
  | seq {α β : Type} {x : Writing α} {f : α → Writing β} {w w' w'' : Writer}
      {log log' : List (Value × Nat)} {a : α} {r : Except Fault β} :
      Run x w log (.ok a) w' → Run (f a) w' log' r w'' → Run (x >>= f) w (log ++ log') r w''
  | stop {α β : Type} {x : Writing α} {f : α → Writing β} {w w' : Writer}
      {log : List (Value × Nat)} {fault : Fault} :
      Run x w log (.error fault) w' → Run (x >>= f) w log (.error fault) w'
  | calm {α : Type} {x : Writing α} {h : Fault → Writing α} {w w' : Writer}
      {log : List (Value × Nat)} {a : α} :
      Run x w log (.ok a) w' → Run (tryCatch x h) w log (.ok a) w'
  | recover {α : Type} {x : Writing α} {h : Fault → Writing α} {w w' w'' : Writer}
      {log log' : List (Value × Nat)} {fault : Fault} {r : Except Fault α} :
      Run x w log (.error fault) w' → Run (h fault) w' log' r w'' →
      Run (tryCatch x h) w (log ++ log') r w''

/-- **A run is what the writing does.** -/
theorem Run.on_eq {x : Writing α} {r : Except Fault α} (h : Run x w log r w') :
    x.on w = (r, w') := by
  induction h with
  | pure | fail | look | report | push | space | keyword | name | value => rfl
  | seq _ _ ih ih' => rw [on_bind, ih]; exact ih'
  | stop _ ih => rw [on_bind, ih]
  | calm _ ih => rw [on_tryCatch, ih]
  | recover _ _ ih ih' => rw [on_tryCatch, ih]; exact ih'

/-- **A run extends the writer**, and the numbers in its record come one after the other: it goes
on with the counter where that stands, whether the run succeeds or not. -/
theorem Run.extends {x : Writing α} {r : Except Fault α} (h : Run x w log r w') :
    ∃ s vs, w' = w.extend s vs ∧ log = vs.zipIdx w.next := by
  induction h with
  | pure _ w | fail _ w | look w | report _ w => exact ⟨"", [], w.extend_nil.symm, rfl⟩
  | push s w => exact ⟨s, [], w.push_eq_extend s, rfl⟩
  | space w =>
    obtain ⟨s, hs⟩ := w.space_eq_extend
    exact ⟨s, [], hs, rfl⟩
  | keyword s w =>
    obtain ⟨t, ht⟩ := w.space_eq_extend
    refine ⟨t ++ s, [], ?_, rfl⟩
    rw [Writer.keyword, ht, Writer.push_eq_extend, Writer.extend_extend, List.append_nil]
  | name d s w => exact ⟨d.quoteName s, [], w.push_eq_extend _, rfl⟩
  | value d v w => exact ⟨d.placeholder w.next, [v], rfl, rfl⟩
  | stop _ ih | calm _ ih => exact ih
  | seq _ _ ih ih' | recover _ _ ih ih' =>
    obtain ⟨s, vs, rfl, rfl⟩ := ih
    obtain ⟨t, us, rfl, rfl⟩ := ih'
    refine ⟨s ++ t, vs ++ us, Writer.extend_extend _ s t vs us, ?_⟩
    rw [List.zipIdx_append]
    rfl

/-! ## Writings that are made of the operations -/

/-- The writing has a run on every writer. -/
def Made (x : Writing α) : Prop := ∀ w, ∃ log r w', Run x w log r w'

/-- What is made of the operations has a run that ends as it does. -/
theorem Made.run {x : Writing α} (h : Made x) (w : Writer) :
    ∃ log, Run x w log (x.on w).1 (x.on w).2 := by
  obtain ⟨log, r, w', hrun⟩ := h w
  rw [hrun.on_eq]
  exact ⟨log, hrun⟩

theorem Made.pure (a : α) : Made (Pure.pure a : Writing α) := fun w => ⟨_, _, _, .pure a w⟩

theorem Made.throw (fault : Fault) : Made (throw fault : Writing α) :=
  fun w => ⟨_, _, _, .fail fault w⟩

theorem Made.get : Made (get : Writing Writer) := fun w => ⟨_, _, _, .look w⟩

theorem Made.push (s : String) : Made (Writing.push s) := fun w => ⟨_, _, _, .push s w⟩

theorem Made.space : Made Writing.space := fun w => ⟨_, _, _, .space w⟩

theorem Made.keyword (s : String) : Made (Writing.keyword s) := fun w => ⟨_, _, _, .keyword s w⟩

theorem Made.name (d : Dialect) (s : String) : Made (Writing.name d s) :=
  fun w => ⟨_, _, _, .name d s w⟩

theorem Made.value (d : Dialect) (v : Value) : Made (Writing.value d v) :=
  fun w => ⟨_, _, _, .value d v w⟩

/-- What is made of the operations may go on, by what it has come to, with more of them. -/
theorem Made.seq {x : Writing α} {f : α → Writing β} (hx : Made x) (hf : ∀ a, Made (f a)) :
    Made (x >>= f) := by
  intro w
  obtain ⟨log, r, w', hrun⟩ := hx w
  cases r with
  | error fault => exact ⟨_, _, _, hrun.stop⟩
  | ok a =>
    obtain ⟨log', r, w'', hrun'⟩ := hf a w'
    exact ⟨_, _, _, hrun.seq hrun'⟩

/-- It may recover from a failure with more of them. -/
theorem Made.tryCatch {x : Writing α} {h : Fault → Writing α} (hx : Made x)
    (hh : ∀ fault, Made (h fault)) : Made (tryCatch x h) := by
  intro w
  obtain ⟨log, r, w', hrun⟩ := hx w
  cases r with
  | ok a => exact ⟨_, _, _, hrun.calm⟩
  | error fault =>
    obtain ⟨log', r, w'', hrun'⟩ := hh fault w'
    exact ⟨_, _, _, hrun.recover hrun'⟩

/-- A list of such items is made of the operations too. -/
theorem Made.list {item : α → Writing Unit} (separator : String) :
    ∀ xs : List α, (∀ x ∈ xs, Made (item x)) → Made (Writing.list separator item xs)
  | [], _ => .pure ()
  | [x], h => h x List.mem_cons_self
  | x :: y :: rest, h =>
    (h x List.mem_cons_self).seq fun _ => (Made.push separator).seq fun _ =>
      Made.list separator (y :: rest) fun z hz => h z (List.mem_cons_of_mem x hz)

/-- A piece is put by an operation. -/
theorem made_put (d : Dialect) (p : Piece) : Made (modify fun w : Writer => w.put d p) := by
  cases p with
  | blank => exact Made.push " "
  | word s => exact Made.push s
  | name s => exact Made.name d s
  | mark v => exact (Made.value d v).seq fun _ => Made.pure ()

theorem made_putAll (d : Dialect) (ps : List Piece) :
    Made (modify fun w : Writer => w.putAll d ps) := by
  induction ps with
  | nil => exact Made.pure ()
  | cons p ps ih => exact (made_put d p).seq fun _ => ih

/-- What writes a draft is made of the operations: it puts the pieces and fails where the draft
does. -/
theorem made_of_writes {x : Writing Unit} {X : Draft} (h : Writes d x X) : Made x := by
  have hx : x = modify (fun w : Writer => w.putAll d X.pieces) >>= fun _ =>
      X.fault?.elim (Pure.pure ()) throw := by
    funext w
    refine (h w).trans ?_
    rw [Draft.outcome]
    cases X.fault? <;> rfl
  rw [hx]
  refine (made_putAll d X.pieces).seq fun _ => ?_
  cases X.fault? with
  | none => exact Made.pure ()
  | some fault => exact Made.throw fault

end Writing

/-! ## Sessions -/

namespace Writer

open Writing

/-- What is done with a writer.  The items of a list write, fail and recover as they like, by the
operations. -/
inductive Op where
  | push (s : String)
  | space
  | keyword (s : String)
  | name (d : Dialect) (s : String)
  | value (d : Dialect) (v : Value)
  | list (separator : String) (items : List { x : Writing Unit // Made x })
  | condition (d : Dialect) (c : Condition)

namespace Op

/-- What an operation writes. -/
def writing : Op → Writing Unit
  | push s => Writing.push s
  | space => Writing.space
  | keyword s => Writing.keyword s
  | name d s => Writing.name d s
  | value d v => discard (Writing.value d v)
  | list separator items => Writing.list separator Subtype.val items
  | condition d c => c.write d

/-- The number that a value pushed by itself gets. -/
def answer? (w : Writer) : Op → Option Nat
  | value d v => ((Writing.value d v).on w).1.toOption
  | _ => none

/-- Operations are made of operations, lists and conditions among them. -/
theorem made_writing : ∀ op : Op, Made op.writing
  | push s => .push s
  | space => .space
  | keyword s => .keyword s
  | name d s => .name d s
  | value d v => (Made.value d v).seq fun _ => .pure ()
  | list separator items => .list separator items fun x _ => x.2
  | condition d c => made_of_writes (c.write_writes d)

end Op

/-- The writer after an operation, failed or not. -/
def perform (w : Writer) (op : Op) : Writer := (op.writing.on w).2

/-- The writer after operations. -/
def performAll (w : Writer) (ops : List Op) : Writer := ops.foldl perform w

/-- The numbers that the values pushed by themselves get. -/
def answers (w : Writer) : List Op → List Nat
  | [] => []
  | op :: ops => (op.answer? w).toList ++ (w.perform op).answers ops

/-- **The record of operations**: those of their runs, one behind the other. -/
inductive Records : Writer → List Op → List (Value × Nat) → Prop
  | nil (w : Writer) : Records w [] []
  | cons {w w' : Writer} {op : Op} {ops : List Op} {log log' : List (Value × Nat)}
      {r : Except Fault Unit} :
      Run op.writing w log r w' → Records w' ops log' → Records w (op :: ops) (log ++ log')

variable {w w' : Writer} {op : Op} {ops : List Op} {log : List (Value × Nat)}

/-- Every operation has a run, which is what it does. -/
theorem exists_run (w : Writer) (op : Op) :
    ∃ log r, Run op.writing w log r (w.perform op) := by
  obtain ⟨log, hrun⟩ := op.made_writing.run w
  exact ⟨log, _, hrun⟩

/-- **An operation extends the writer**, failed or not. -/
theorem perform_extends (w : Writer) (op : Op) : ∃ s vs, w.perform op = w.extend s vs := by
  obtain ⟨log, r, hrun⟩ := w.exists_run op
  obtain ⟨s, vs, hw, -⟩ := hrun.extends
  exact ⟨s, vs, hw⟩

/-- **The record of a session** is what the writer has gained, numbered from where the counter
stood. -/
theorem Records.extends (h : Records w ops log) :
    ∃ s vs, w.performAll ops = w.extend s vs ∧ log = vs.zipIdx w.next := by
  induction h with
  | nil w => exact ⟨"", [], w.extend_nil.symm, rfl⟩
  | @cons w w' op ops log log' r hrun _ ih =>
    have hw' : w.perform op = w' := congrArg Prod.snd hrun.on_eq
    obtain ⟨s, vs, rfl, rfl⟩ := hrun.extends
    obtain ⟨t, us, hw, rfl⟩ := ih
    refine ⟨s ++ t, vs ++ us, ?_, ?_⟩
    · rw [performAll, List.foldl_cons, ← performAll, hw', hw, extend_extend]
    · rw [List.zipIdx_append]
      rfl

/-- Every session has a record. -/
theorem exists_records (w : Writer) (ops : List Op) : ∃ log, Records w ops log := by
  induction ops generalizing w with
  | nil => exact ⟨[], .nil w⟩
  | cons op ops ih =>
    obtain ⟨log, r, hrun⟩ := w.exists_run op
    obtain ⟨log', hrecords⟩ := ih (w.perform op)
    exact ⟨log ++ log', .cons hrun hrecords⟩

/-- **A session extends the writer**, whatever fails in it. -/
theorem performAll_extends (w : Writer) (ops : List Op) :
    ∃ s vs, w.performAll ops = w.extend s vs := by
  obtain ⟨log, h⟩ := w.exists_records ops
  obtain ⟨s, vs, hw, -⟩ := h.extends
  exact ⟨s, vs, hw⟩

/-- The counter stands behind the values. -/
theorem next_extend (h : w.next = 1 + w.args.length) (s : String) (vs : List Value) :
    (w.extend s vs).next = 1 + (w.extend s vs).args.length := by
  rw [extend, List.length_append, h, Nat.add_assoc]

/-- A value pushed by itself gets the number at which the counter stands. -/
theorem answer?_eq_some {n : Nat} (h : op.answer? w = some n) :
    n = w.next ∧ (w.perform op).next = n + 1 := by
  cases op with
  | value d v =>
    obtain rfl := Option.some.inj h
    exact ⟨rfl, rfl⟩
  | _ => cases h

/-- The counter never goes back. -/
theorem next_le_perform (w : Writer) (op : Op) : w.next ≤ (w.perform op).next := by
  obtain ⟨s, vs, hw⟩ := w.perform_extends op
  rw [hw]
  exact Nat.le_add_right _ _

/-- No number is given out twice: those to come are not below the counter. -/
theorem next_le_of_mem_answers {n : Nat} (h : n ∈ w.answers ops) : w.next ≤ n := by
  induction ops generalizing w with
  | nil => cases h
  | cons op ops ih =>
    rw [answers, List.mem_append, Option.mem_toList] at h
    cases h with
    | inl h => exact Nat.le_of_eq (answer?_eq_some h).1.symm
    | inr h => exact Nat.le_trans (w.next_le_perform op) (ih h)

/-- **The numbers that are given out increase.** -/
theorem pairwise_answers (w : Writer) (ops : List Op) : (w.answers ops).Pairwise (· < ·) := by
  induction ops generalizing w with
  | nil => exact .nil
  | cons op ops ih =>
    rw [answers, List.pairwise_append]
    refine ⟨?_, ih _, fun n hn m hm => ?_⟩
    · cases op.answer? w <;> simp
    · have hnext := (answer?_eq_some (Option.mem_toList.mp hn)).2
      have hle := next_le_of_mem_answers hm
      omega

/-- **Numbers follow values**, whatever is done with a writer and whether it succeeds.  After any
operations the counter is one more than the number of values; a further operation keeps the text
and the values and adds behind them; the numbers that values pushed by themselves get increase, each
being the number of values there are then; and the values are those that were pushed, each when the
counter stood at its place. -/
theorem numbers_follow_values (ops : List Op) :
    let w : Writer := performAll {} ops
    w.next = 1 + w.args.length ∧
    (∀ op, (∃ s, (w.perform op).text = w.text ++ s) ∧ w.args <+: (w.perform op).args) ∧
    (answers {} ops).Pairwise (· < ·) ∧
    (∀ d v, (Op.value d v).answer? w = some (w.perform (.value d v)).args.length) ∧
    (∃ log, Records {} ops log) ∧
    ∀ log, Records {} ops log → log = w.args.zipIdx 1 := by
  intro w
  have hnext : w.next = 1 + w.args.length := by
    obtain ⟨s, vs, hw⟩ := performAll_extends {} ops
    rw [show w = extend {} s vs from hw]
    exact next_extend rfl s vs
  refine ⟨hnext, fun op => ?_, pairwise_answers {} ops, fun d v => ?_, exists_records {} ops,
    fun log h => ?_⟩
  · obtain ⟨s, vs, hw⟩ := w.perform_extends op
    rw [hw]
    exact ⟨⟨s, rfl⟩, List.prefix_append _ _⟩
  · have hlength : (w.perform (.value d v)).args.length = w.args.length + 1 :=
      List.length_append
    have hanswer : (Op.value d v).answer? w = some w.next := rfl
    rw [hanswer, hnext, hlength, Nat.add_comm]
  · obtain ⟨s, vs, hw, rfl⟩ := h.extends
    rw [show w = extend {} s vs from hw]
    rfl

/-- A list for one dialect, whose second item recovers and then fails because of what it sees; a
value for another dialect; and for a third one a condition with an empty group in it. -/
def mixed : List Op :=
  [.list ", " [
      ⟨discard (Writing.value .postgresql (.ofText "a")), .seq (.value _ _) fun _ => .pure ()⟩,
      ⟨tryCatch (throw .missingTable) fun fault => get >>= fun w =>
        if w.args.isEmpty then pure () else throw fault,
        .tryCatch (.throw _) fun _ => .seq .get fun _ => by
          split
          · exact .pure ()
          · exact .throw _⟩],
    .value .mysql (.ofText "b"),
    .condition .sqlserver (.any [.compare "x" .eq (.single (.ofText "c")), .all []]),
    .value .postgresql (.ofText "d")]

theorem mixed_numbered :
    (performAll {} mixed).text = "$1, ?([x] = @p3 OR $4" ∧
    answers {} mixed = [2, 4] ∧ (answers {} mixed).Pairwise (· < ·) ∧
    (∃ log, Records {} mixed log) ∧
    ∀ log, Records {} mixed log →
      log = [(.ofText "a", 1), (.ofText "b", 2), (.ofText "c", 3), (.ofText "d", 4)] := by
  obtain ⟨-, -, hanswers, -, hrecorded, hlog⟩ := numbers_follow_values mixed
  exact ⟨by decide +kernel, rfl, hanswers, hrecorded, fun log h => (hlog log h).trans rfl⟩

end Writer

end SelectQuery
