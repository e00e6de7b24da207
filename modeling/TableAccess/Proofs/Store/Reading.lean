import TableAccess.Proofs.Attempt
import TableAccess.Store.Statement

/-!
# Statements that change no content

Much of what a connection does leaves the content of a store alone: it notes which tables its
transaction has used, and which statements it has matched. Here is told what all such steps
keep, on every store, and what a statement that only reads is answered with.
-/

namespace TableAccess

open Attempt (Ends)

/-! ## Notes -/

/-- The connection that is changing the store, with the content that a rollback brings back. -/
def Store.holder (s : Store) : Option (Nat × Database) :=
  s.writer.map fun w => (w.connection, w.before)

/-- A store on which a connection has at most noted something about its own transaction. -/
structure Noted (c : Nat) (s t : Store) : Prop where
  database : t.database = s.database
  holder : t.holder = s.holder
  transactions : ∃ note : Transaction → Transaction,
    (∀ own, (note own).connection = own.connection ∧ (note own).owed = own.owed) ∧
      t.transactions = s.transactions.map fun own => if own.connection == c then note own else own

namespace Noted

variable {c : Nat} {s t u : Store}

/-- What a store holds besides transactions and memories is all that counts here. -/
theorem of_eq (database : t.database = s.database) (holder : t.holder = s.holder)
    (transactions : t.transactions = s.transactions) : Noted c s t := by
  refine ⟨database, holder, id, fun _ => ⟨rfl, rfl⟩, ?_⟩
  simp [transactions]

theorem refl (c : Nat) (s : Store) : Noted c s s := of_eq rfl rfl rfl

theorem trans (first : Noted c s t) (second : Noted c t u) : Noted c s u := by
  obtain ⟨note, kept, once⟩ := first.transactions
  obtain ⟨other, still, twice⟩ := second.transactions
  refine ⟨second.database.trans first.database, second.holder.trans first.holder,
    fun own => other (note own), fun own => ⟨?_, ?_⟩, ?_⟩
  · rw [(still _).1, (kept own).1]
  · rw [(still _).2, (kept own).2]
  · rw [twice, once, List.map_map]
    refine List.map_congr_left fun own _ => ?_
    by_cases mine : own.connection = c
    · simp [mine, (kept own).1]
    · simp [mine]

theorem counted (c : Nat) (s : Store) : Noted c s s.counted := of_eq rfl rfl rfl

theorem remember (c d : Nat) (s : Store) (update : Memory → Memory) :
    Noted c s (s.remember d update) :=
  of_eq rfl rfl rfl

theorem updateTransaction (c : Nat) (s : Store) {note : Transaction → Transaction}
    (kept : ∀ own, (note own).connection = own.connection ∧ (note own).owed = own.owed) :
    Noted c s (s.updateTransaction c note) :=
  ⟨rfl, rfl, note, kept, rfl⟩

theorem activate (c : Nat) (s : Store) : Noted c s (s.activate c) := by
  refine updateTransaction c s fun own => ?_
  split
  · exact ⟨rfl, rfl⟩
  · exact ⟨rfl, rfl⟩

theorem refuseWriter (c : Nat) (s : Store) : Noted c s (s.refuseWriter c) := by
  refine of_eq rfl ?_ rfl
  unfold Store.holder Store.refuseWriter
  cases s.writer with
  | none => rfl
  | some w => by_cases mine : w.connection = c <;> simp [mine]

end Noted

/-- A connection becomes the writer unless there is one already. -/
theorem Store.makeWriter_eq (s : Store) (c : Nat) : s.makeWriter c =
    { s.activate c with
      writer := some (s.writer.getD { connection := c, before := s.database }) } := by
  have same : (s.activate c).writer = s.writer := rfl
  unfold makeWriter
  cases writer : s.writer with
  | none =>
      dsimp only
      rw [same, writer]
      rfl
  | some w =>
      dsimp only
      rw [same, writer]
      exact congrArg (fun held => { s.activate c with writer := held }) writer

/-- Each connection has a memory of its own. -/
theorem Store.memory_remember (s : Store) (c d : Nat) (update : Memory → Memory) :
    (s.remember c update).memory d = if d = c then update (s.memory c) else s.memory d := by
  by_cases same : d = c
  · subst same
    simp [memory, remember]
  · unfold memory remember
    have others : (s.memories.filter fun entry => entry.1 != c).find? (fun entry => entry.1 == d) =
        s.memories.find? fun entry => entry.1 == d := by
      rw [List.find?_filter]
      congr 1
      funext entry
      by_cases found : entry.1 = d
      · simp [found, same]
      · simp [found]
    simp [others, same, Ne.symm same]

/-! ## Steps that only note -/

/-- An attempt that only notes something, whatever comes of it, with a value of some kind. -/
def Attempt.Notes {ε α : Type} (a : Attempt Store ε α) (c : Nat) (s : Store)
    (value : α → Prop) : Prop :=
  a.Ends s (fun v next => Noted c s next ∧ value v) fun _ next => Noted c s next

namespace Attempt.Notes

variable {ε δ α β : Type} {a : Attempt Store ε α} {c : Nat} {s t : Store} {value : α → Prop}

theorem bind {next : α → Attempt Store ε β} {kept : β → Prop} (first : a.Notes c s value)
    (second : ∀ v reached, reached.database = s.database → value v →
      (next v).Notes c reached kept) : (a >>= next).Notes c s kept := by
  refine Ends.bind first (fun v reached ⟨noted, holds⟩ => ?_) fun _ _ noted => noted
  refine (second v reached noted.database holds).mono ?_ ?_
  · exact fun _ _ later => ⟨noted.trans later.1, later.2⟩
  · exact fun _ _ later => noted.trans later

theorem mono {weaker : α → Prop} (notes : a.Notes c s value) (weaken : ∀ v, value v → weaker v) :
    a.Notes c s weaker :=
  Ends.mono notes (fun v _ kept => ⟨kept.1, weaken v kept.2⟩) fun _ _ noted => noted

theorem mapError {rename : ε → δ} (notes : a.Notes c s value) :
    (a.mapError rename).Notes c s value :=
  Ends.mapError notes

theorem pure {v : α} (holds : value v) : (Pure.pure v : Attempt Store ε α).Notes c s value :=
  Ends.pure ⟨.refl c s, holds⟩

theorem throw (e : ε) : (MonadExcept.throw e : Attempt Store ε α).Notes c s value :=
  Ends.throw (.refl c s)

/-- What would come after a refusal does not matter. -/
theorem refuse (e : ε) {next : α → Attempt Store ε β} {kept : β → Prop} :
    ((MonadExcept.throw e : Attempt Store ε α) >>= next).Notes c s kept :=
  Ends.stop rfl (.refl c s)

theorem ofExcept {result : Except ε α} (holds : ∀ v, result = .ok v → value v) :
    (Attempt.ofExcept result).Notes c s value := by
  cases result with
  | ok v => exact .pure (holds v rfl)
  | error e => exact .throw e

theorem reading (read : Store → α) :
    (Attempt.reading read : Attempt Store ε α).Notes c s fun v => v = read s :=
  Ends.of_eq_ok rfl ⟨.refl c s, rfl⟩

/-- Looking at the content changes nothing. -/
theorem looking (look : Database → Except ε α) :
    (Attempt.of fun store : Store => (look store.database, store)).Notes c s
      fun v => look s.database = .ok v := by
  refine Ends.mono (Ends.looking fun store : Store => look store.database) ?_ ?_
  · rintro v _ ⟨rfl, found⟩
    exact ⟨.refl c _, found⟩
  · rintro e _ ⟨rfl, _⟩
    exact .refl c _

theorem changing {change : Store → Store} (noted : Noted c s (change s)) :
    (Attempt.changing change : Attempt Store ε Unit).Notes c s fun _ => True :=
  Ends.of_eq_ok rfl ⟨noted, trivial⟩

end Attempt.Notes

namespace Store

variable {α β : Type} {c : Nat} {s : Store}

theorem requireSchema_notes : (requireSchema c).Notes c s fun _ => True := by
  unfold requireSchema
  by_cases locked : s.schemaLocked c
  · exact .of_eq_error (by rw [Attempt.outcome_of, if_pos locked]) (.refl c s)
  · exact .of_eq_ok (by rw [Attempt.outcome_of, if_neg locked]) ⟨.refl c s, trivial⟩

theorem announce_notes : (announce c).Notes c s fun _ => True :=
  (Attempt.Notes.changing (.counted c s)).bind fun _ _ _ _ => requireSchema_notes

theorem enterReading_notes : (enterReading c).Notes c s fun _ => True := by
  unfold enterReading
  by_cases barred : s.bars c
  · exact .of_eq_error (by rw [Attempt.outcome_of, if_pos barred]) (.refl c s)
  · exact .of_eq_ok (by rw [Attempt.outcome_of, if_neg barred]) ⟨.activate c s, trivial⟩

/-! ## Matching -/

variable (form : Form β)

theorem takeUp_notes : (takeUp c form).Notes c s fun _ => True := by
  unfold takeUp
  refine (Attempt.Notes.reading _).bind fun kept reached _ _ => ?_
  split
  · refine (Attempt.Notes.changing ?_).bind fun _ _ _ _ => .pure trivial
    exact (Noted.remember c c reached _).trans (.counted c _)
  · refine announce_notes.bind fun _ _ _ _ => ?_
    refine (Attempt.Notes.looking form.plan).bind fun plan matched _ _ => ?_
    exact (Attempt.Notes.changing (.remember c c matched _)).bind fun _ _ _ _ => .pure trivial

theorem rematch_notes :
    (rematch c form).Notes c s fun plan => form.plan s.database = .ok plan := by
  unfold rematch
  cases planned : form.plan s.database with
  | ok plan =>
      refine .of_eq_ok ?_ ⟨.remember c c s (·.keep ⟨form.sql, form.columns plan, false⟩), rfl⟩
      rw [Attempt.outcome_of, planned]
  | error fault =>
      refine .of_eq_error (e := fault.bare) ?_ (.remember c c s (·.spoil form.sql))
      rw [Attempt.outcome_of, planned]

theorem renew_notes : (renew c form).Notes c s fun _ => True := by
  unfold renew
  refine (Attempt.Notes.reading _).bind fun expired _ _ _ => ?_
  split
  · refine requireSchema_notes.bind fun _ _ _ _ => ?_
    exact (rematch_notes form).bind fun _ _ _ _ => .pure trivial
  · exact .pure trivial

/-! ## Taking tables -/

theorem takeForReading_notes (tables : List String) :
    (takeForReading c tables).Notes c s fun _ => True := by
  induction tables generalizing s with
  | nil => exact .pure trivial
  | cons table rest ih =>
      unfold takeForReading
      refine (Attempt.Notes.reading _).bind fun changed reached _ _ => ?_
      split
      · exact .refuse _
      · refine (Attempt.Notes.changing ?_).bind fun _ _ _ _ => ih
        exact .updateTransaction c reached fun _ => ⟨rfl, rfl⟩

theorem takeForWriting_notes (table : String) :
    (takeForWriting c table).Notes c s fun _ => True := by
  unfold takeForWriting
  refine (Attempt.Notes.reading _).bind fun used reached _ _ => ?_
  split
  · refine (Attempt.Notes.changing (.refuseWriter c reached)).bind fun _ _ _ _ => ?_
    exact .refuse _
  · exact .changing (.updateTransaction c reached fun _ => ⟨rfl, rfl⟩)

/-! ## Statements that read -/

theorem read_notes (tables : β → List String) (answer : Database → Except Fault α) :
    (read c form tables answer).Notes c s fun v => answer s.database = .ok v := by
  unfold read
  refine (renew_notes form).bind fun _ renewed same _ => ?_
  refine enterReading_notes.bind fun _ entered still _ => ?_
  refine (rematch_notes form).bind fun plan matched kept _ => ?_
  refine (takeForReading_notes _).bind fun _ taken last _ => ?_
  rw [← same, ← still, ← kept, ← last]
  exact .looking answer

theorem query_notes {form : Form β} {held : List String → Prop}
    (taken : (takeUp c form).Notes c s held) (tables : β → List String)
    (answer : Database → Except Fault (List Row)) :
    (query c form tables answer).Notes c s fun rows => ∃ columns found,
      held columns ∧ answer s.database = .ok found ∧ shown columns found = .ok rows := by
  unfold query
  refine taken.bind fun columns reached same holds => ?_
  refine (read_notes form tables answer).bind fun found _ _ answered => ?_
  exact .ofExcept fun rows fits => ⟨columns, found, holds, same ▸ answered, fits⟩

theorem select_notes (q : Select) : (select c q).Notes c s fun _ => True :=
  (query_notes (takeUp_notes _) _ _).mono fun _ _ => trivial

theorem dump_notes (table : String) : (dump c table).Notes c s fun _ => True :=
  (query_notes (takeUp_notes _) _ _).mono fun _ _ => trivial

theorem discover_notes (whole : String) : (discover c whole).Notes c s fun snapshot =>
    (s.database.discover).map Snapshot.ofList = .ok snapshot := by
  unfold discover
  refine (Attempt.Notes.mapError (announce_notes.bind fun _ _ _ _ => enterReading_notes)).bind
    fun _ reached same _ => ?_
  rw [← same]
  exact .looking fun db => (db.discover).map Snapshot.ofList

theorem spin_notes (sql : String) : (spin c sql).Notes c s fun _ => True :=
  (takeUp_notes _).bind fun _ _ _ _ => renew_notes _

end Store

end TableAccess
