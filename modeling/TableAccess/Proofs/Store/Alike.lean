import TableAccess.Proofs.Pairs
import TableAccess.Proofs.Store.Within

/-!
# Stores that look alike

A connection that has a store to itself cannot tell two stores apart that hold the same content,
owe the same, go back to the same content, and differ in what the connection remembers at most in
which of its statements it has to match again. Every statement ends on both in the same way and
leaves stores that look alike. One that has to be matched again is so before it touches the store,
and one that does not only afterwards; if it no longer fits, it is refused in the same words.
-/

namespace TableAccess

open Attempt (Ends Agree Respects)

/-! ## Statements to be matched again -/

namespace Memory

variable {m n : Memory} {k l : KeptStatement}

theorem expire_expire (m : Memory) : m.expire.expire = m.expire := by
  unfold expire
  simp

/-- Which kept statements have to be matched again does not matter for which are kept. -/
theorem expire_keep (m : Memory) (k : KeptStatement) :
    (m.keep k).expire = m.expire.keep { k with expired := true } := by
  unfold expire keep
  simp only [Memory.mk.injEq, true_and, List.map_take, List.map_cons, List.filter_map]
  rfl

theorem expire_kept? (m : Memory) (sql : String) :
    m.expire.kept? sql = (m.kept? sql).map fun k => { k with expired := true } := by
  unfold expire kept?
  rw [List.find?_map]
  rfl

theorem expire_keep_congr (same : m.expire = n.expire) (sql : k.sql = l.sql)
    (columns : k.columns = l.columns) : (m.keep k).expire = (n.keep l).expire := by
  rw [expire_keep, expire_keep, same, sql, columns]

theorem sql_of_kept? {sql : String} (found : m.kept? sql = some k) : k.sql = sql := by
  have same := List.find?_some found
  simpa using same

theorem kept?_keep (m : Memory) (k : KeptStatement) : (m.keep k).kept? k.sql = some k := by
  unfold kept? keep capacity
  dsimp only
  rw [List.take_succ_cons, List.find?_cons_of_pos (by simp)]

/-- A statement that is kept twice is kept as it was the second time. -/
theorem keep_keep (same : l.sql = k.sql) : (m.keep k).keep l = m.keep l := by
  unfold keep capacity
  simp only [Memory.mk.injEq, true_and, List.take_succ_cons, List.cons.injEq]
  let others := m.kept.filter fun other => other.sql != k.sql
  have apart : (others.take 15).filter (fun other => other.sql != k.sql) = others.take 15 := by
    refine List.filter_eq_self.mpr fun other member => ?_
    exact (List.mem_filter.mp (List.mem_of_mem_take member)).2
  rw [same, List.filter_cons_of_neg (by simp), apart, List.take_take, Nat.min_self]

theorem spoil_absent {sql : String} (absent : m.kept? sql = none) : m.spoil sql = m := by
  unfold spoil
  rw [absent]

theorem kept?_spoil {sql : String} (kept : m.kept? sql = some k) :
    (m.spoil sql).kept? sql = some { k with expired := true } := by
  have same : k.sql = sql := sql_of_kept? kept
  unfold spoil
  rw [kept, ← same]
  exact kept?_keep m { k with expired := true }

theorem expire_spoil (m : Memory) (sql : String) : (m.spoil sql).expire = m.expire.spoil sql := by
  unfold spoil
  rw [expire_kept?]
  cases m.kept? sql with
  | none => rfl
  | some k => exact expire_keep m _

end Memory

/-! ## Stores of one connection -/

namespace Store

/-- What the open transaction of a connection owes. -/
def debt? (s : Store) (c : Nat) : Option Int := (s.transaction? c).map (·.owed)

structure Alone (c : Nat) (s : Store) : Prop where
  own : ∀ t ∈ s.transactions, t.connection = c
  single : s.transactions.length ≤ 1
  held : ∀ held ∈ s.holder, held.1 = c ∧ s.isOpen c = true

/-- Two stores that no other connection uses and that the one cannot tell apart. -/
structure Alike (c : Nat) (s t : Store) : Prop where
  left : Alone c s
  right : Alone c t
  database : t.database = s.database
  debt : t.debt? c = s.debt? c
  before : t.contentBefore c = s.contentBefore c
  memory : (t.memory c).expire = (s.memory c).expire
  statements : t.statements = s.statements

variable {s t u : Store} {c : Nat}

theorem isOpen_eq (s : Store) (c : Nat) : s.isOpen c = (s.debt? c).isSome := by
  unfold isOpen debt?
  rw [Option.isSome_map]

theorem owed_eq (s : Store) (c : Nat) : s.owed c = (s.debt? c).getD 0 := rfl

/-- What is noted of the transaction of a connection is noted of the one that is found. -/
theorem transaction?_of_map {note : Transaction → Transaction}
    (kept : ∀ own, (note own).connection = own.connection)
    (transactions : t.transactions =
      s.transactions.map fun own => if own.connection == c then note own else own) :
    t.transaction? c = (s.transaction? c).map note := by
  have same : ((fun own : Transaction => own.connection == c) ∘
      fun own => if own.connection == c then note own else own) =
        fun own => own.connection == c := by
    funext own
    dsimp only [Function.comp]
    split
    · rw [kept own]
    · rfl
  unfold transaction?
  rw [transactions, List.find?_map, same]
  refine Option.map_congr fun own found => ?_
  exact if_pos (List.find?_some found :)

end Store

theorem Noted.debt? {s t : Store} {c : Nat} (noted : Noted c s t) : t.debt? c = s.debt? c := by
  obtain ⟨note, kept, transactions⟩ := noted.transactions
  unfold Store.debt?
  rw [Store.transaction?_of_map (fun own => (kept own).1) transactions, Option.map_map]
  exact Option.map_congr fun own _ => (kept own).2

namespace Store

namespace Alone

variable {s t : Store} {c : Nat}

/-- Only the transaction of the connection is changed, and it stays that of the connection. -/
theorem of_map (alone : Alone c s) {note : Transaction → Transaction}
    (kept : ∀ own, (note own).connection = own.connection)
    (transactions : t.transactions =
      s.transactions.map fun own => if own.connection == c then note own else own)
    (holder : t.holder = s.holder) : Alone c t := by
  refine ⟨?_, ?_, ?_⟩
  · rw [transactions]
    intro own member
    obtain ⟨old, listed, rfl⟩ := List.mem_map.mp member
    split
    · exact (kept old).trans (alone.own old listed)
    · exact alone.own old listed
  · rw [transactions, List.length_map]
    exact alone.single
  · rw [holder, Store.isOpen, transaction?_of_map kept transactions, Option.isSome_map]
    exact alone.held

theorem noted (alone : Alone c s) (noted : Noted c s t) : Alone c t := by
  obtain ⟨note, kept, transactions⟩ := noted.transactions
  exact alone.of_map (fun own => (kept own).1) transactions noted.holder

/-- Nothing of what others might have done is in the way. -/
theorem changedElsewhere (alone : Alone c s) (table : String) :
    s.changedElsewhere c table = false := by
  refine List.any_eq_false.mpr fun t member => ?_
  simp [alone.own t member]

theorem readElsewhere (alone : Alone c s) (table : String) : s.readElsewhere c table = false := by
  refine List.any_eq_false.mpr fun t member => ?_
  simp [alone.own t member]

/-- The writer is the connection that is alone, and its transaction is open. -/
theorem of_writer (alone : Alone c s) {w : Writer} (writer : s.writer = some w) :
    w.connection = c ∧ s.isOpen c = true :=
  alone.held (w.connection, w.before) (by simp [holder, writer])

theorem writtenElsewhere (alone : Alone c s) : s.writtenElsewhere c = false := by
  rw [Bool.eq_false_iff]
  intro taken
  obtain ⟨held, found, other⟩ := writtenElsewhere_iff.mp taken
  exact other (alone.held held found).1

theorem bars (alone : Alone c s) : s.bars c = false := by
  have locked : s.schemaLocked c = false := alone.changedElsewhere _
  have waited : ((s.writer.map fun w => w.refused && w.connection != c).getD false) = false := by
    cases writer : s.writer with
    | none => rfl
    | some w => simp [(alone.of_writer writer).1]
  unfold Store.bars
  rw [locked, waited]
  simp

/-- Without an open transaction there is no writer. -/
theorem writer_of_closed (alone : Alone c s) (closed : s.isOpen c = false) : s.writer = none := by
  cases writer : s.writer with
  | none => rfl
  | some w =>
      have opened := (alone.of_writer writer).2
      rw [closed] at opened
      cases opened

end Alone

/-! ## What a connection remembers -/

theorem memory_remember_self (s : Store) (c : Nat) (update : Memory → Memory) :
    (s.remember c update).memory c = update (s.memory c) := by
  rw [memory_remember, if_pos rfl]

theorem remember_remember (s : Store) (c : Nat) (first second : Memory → Memory) :
    (s.remember c first).remember c second = s.remember c (second ∘ first) := by
  have memory := memory_remember_self s c first
  unfold remember at memory ⊢
  simp [memory]

theorem Alone.remember {s : Store} {c : Nat} (alone : Alone c s) (d : Nat)
    (update : Memory → Memory) : Alone c (s.remember d update) :=
  alone.noted (.remember c d s update)

/-! ## Looking alike -/

namespace Alike

variable {s t u v : Store} {c : Nat}

theorem refl (alone : Alone c s) : Alike c s s := ⟨alone, alone, rfl, rfl, rfl, rfl, rfl⟩

theorem symm (alike : Alike c s t) : Alike c t s :=
  ⟨alike.right, alike.left, alike.database.symm, alike.debt.symm, alike.before.symm,
    alike.memory.symm, alike.statements.symm⟩

theorem trans (first : Alike c s t) (second : Alike c t u) : Alike c s u :=
  ⟨first.left, second.right, second.database.trans first.database, second.debt.trans first.debt,
    second.before.trans first.before, second.memory.trans first.memory,
    second.statements.trans first.statements⟩

/-- What comes to the same on each of two stores that look alike. -/
theorem carry (alike : Alike c s t) (left : Alike c s u) (right : Alike c t v) : Alike c u v :=
  left.symm.trans (alike.trans right)

theorem isOpen (alike : Alike c s t) : t.isOpen c = s.isOpen c := by
  rw [isOpen_eq, isOpen_eq, alike.debt]

theorem owed (alike : Alike c s t) : t.owed c = s.owed c := by
  rw [owed_eq, owed_eq, alike.debt]

/-- The same statements are kept. -/
theorem kept? (alike : Alike c s t) (sql : String) :
    ((s.memory c).kept? sql = none ∧ (t.memory c).kept? sql = none) ∨
      ∃ k l, (s.memory c).kept? sql = some k ∧ (t.memory c).kept? sql = some l ∧
        l.sql = k.sql ∧ l.columns = k.columns := by
  have same : (t.memory c).expire.kept? sql = (s.memory c).expire.kept? sql :=
    congrArg (Memory.kept? · sql) alike.memory
  rw [Memory.expire_kept?, Memory.expire_kept?] at same
  cases here : (s.memory c).kept? sql with
  | none =>
      rw [here, Option.map_none, Option.map_eq_none_iff] at same
      exact .inl ⟨rfl, same⟩
  | some k =>
      rw [here, Option.map_some, Option.map_eq_some_iff] at same
      obtain ⟨l, there, equal⟩ := same
      injection equal with sql columns
      exact .inr ⟨k, l, rfl, there, sql, columns⟩

/-- What a connection notes about its transaction cannot be seen. -/
theorem noted (alone : Alone c s) (noted : Noted c s t)
    (memory : (t.memory c).expire = (s.memory c).expire)
    (statements : t.statements = s.statements) : Alike c s t := by
  refine ⟨alone, alone.noted noted, noted.database, noted.debt?, ?_, memory, statements⟩
  rw [contentBefore_eq, contentBefore_eq, noted.holder, noted.database]

theorem counting (alike : Alike c s t) : Alike c s.counted t.counted :=
  ⟨alike.left.noted (.counted c s), alike.right.noted (.counted c t), alike.database, alike.debt,
    alike.before, alike.memory, congrArg (· + 1) alike.statements⟩

theorem activate (alone : Alone c s) : Alike c s (s.activate c) :=
  noted alone (.activate c s) rfl rfl

theorem updateTransaction (alone : Alone c s) {note : Transaction → Transaction}
    (kept : ∀ own, (note own).connection = own.connection ∧ (note own).owed = own.owed) :
    Alike c s (s.updateTransaction c note) :=
  noted alone (.updateTransaction c s kept) rfl rfl

/-- What is remembered in the same way keeps stores alike. -/
theorem remember (alike : Alike c s t) {update other : Memory → Memory}
    (same : (other (t.memory c)).expire = (update (s.memory c)).expire) :
    Alike c (s.remember c update) (t.remember c other) := by
  refine ⟨alike.left.remember c update, alike.right.remember c other, alike.database, alike.debt,
    alike.before, ?_, alike.statements⟩
  rw [memory_remember_self, memory_remember_self, same]

/-- A connection that becomes the writer goes back to the content as it is now. -/
theorem makeWriter (alone : Alone c s) (opened : s.isOpen c = true) :
    Alike c s (s.makeWriter c) := by
  have active : Alike c s (s.activate c) := activate alone
  cases writer : s.writer with
  | some w =>
      have same : s.makeWriter c = s.activate c := by
        rw [makeWriter_eq, writer]
        exact congrArg (fun held => { s.activate c with writer := held }) writer.symm
      rw [same]
      exact active
  | none =>
      have before : s.contentBefore c = s.database := by
        unfold contentBefore
        rw [writer]
      rw [makeWriter_eq, writer]
      refine ⟨alone, ⟨active.right.own, active.right.single, ?_⟩, active.database, active.debt, ?_,
        active.memory, active.statements⟩
      · rintro held found
        have mine : held = (c, s.database) := by
          simpa [holder] using found.symm
        have still : (s.activate c).isOpen c = true := active.isOpen.trans opened
        rw [mine]
        exact ⟨rfl, still⟩
      · rw [before]
        unfold contentBefore
        simp

end Alike

end Store

end TableAccess
