import TableAccess.Proofs.Store.Matching
import TableAccess.Proofs.Store.Reading
import TableAccess.Proofs.Store.RowByRow
import TableAccess.Session.Bracket

/-!
# A connection that changes a table

A store is at rest, apart from what other connections read, or one connection is changing it in
a transaction. Here is told what each step of a change makes of such a store: a change of rows
does to the content what it does to a database by itself, a commit keeps that and a rollback
brings back the content from before.
-/

namespace TableAccess

open Attempt (Ends)

/-! ## Stores -/

/-- Open transactions that are not in the way of a change of a table: none has changed the set
of tables, and none has read the table. -/
structure Quiet (others : List Transaction) (table : String) : Prop where
  schema : ∀ t ∈ others, schemaTable ∉ t.changed
  unread : ∀ t ∈ others, ∀ name ∈ t.read, Text.same name table = false

/-- Quiet transactions, none of which is that of a connection. -/
structure Clear (others : List Transaction) (c : Nat) (table : String) : Prop
    extends Quiet others table where
  elsewhere : ∀ t ∈ others, t.connection ≠ c

/-- A statement that a connection keeps can be read to its end. -/
def Store.Legible (sql : String) (s : Store) : Prop :=
  ∀ entry ∈ s.memories, ∀ k ∈ entry.2.kept, k.sql = sql → Sql.requireWhole sql = .ok ()

structure Resting (others : List Transaction) (sql : String) (db : Database) (s : Store) :
    Prop where
  database : s.database = db
  transactions : s.transactions = others
  writer : s.writer = none
  legible : s.Legible sql

/-- A store of which the transaction that was opened last is that of a connection, and has come
to some content. -/
structure Inside (others : List Transaction) (sql : String) (c : Nat) (x : Content) (s : Store) :
    Prop where
  database : s.database = x.database
  transactions : ∃ own : Transaction, s.transactions = others ++ [own] ∧ own.connection = c ∧
    own.owed = x.owed
  legible : s.Legible sql

structure Writing (others : List Transaction) (sql : String) (c : Nat) (before : Database)
    (x : Content) (s : Store) : Prop extends Inside others sql c x s where
  writer : s.writer = some { connection := c, before }

namespace Store

variable {s : Store} {c : Nat} {sql : String}

theorem Legible.memory (legible : s.Legible sql) (c : Nat) :
    ∀ k ∈ (s.memory c).kept, k.sql = sql → Sql.requireWhole sql = .ok () := by
  unfold Store.memory
  cases found : s.memories.find? fun entry => entry.1 == c with
  | none => exact fun _ member => nomatch member
  | some entry => exact legible entry (List.mem_of_find?_eq_some found)

theorem Legible.remember (legible : s.Legible sql) {update : Memory → Memory}
    (kept : ∀ k ∈ (update (s.memory c)).kept, k.sql = sql → Sql.requireWhole sql = .ok ()) :
    (s.remember c update).Legible sql := by
  refine List.forall_mem_cons.mpr ⟨kept, fun entry member => ?_⟩
  exact legible entry (List.mem_filter.mp member).1

theorem Legible.keep (legible : s.Legible sql) {k : KeptStatement}
    (whole : Sql.requireWhole sql = .ok ()) : (s.remember c (·.keep k)).Legible sql :=
  legible.remember fun _ _ _ => whole

theorem Legible.expire (legible : s.Legible sql) : (s.remember c Memory.expire).Legible sql := by
  refine legible.remember fun other member => ?_
  obtain ⟨k, old, rfl⟩ := List.mem_map.mp member
  exact legible.memory c k old

theorem requireSchema_unlocked (unlocked : s.schemaLocked c = false) :
    (requireSchema c).outcome s = (.ok (), s) := by
  unfold requireSchema
  rw [Attempt.outcome_of, unlocked]
  rfl

theorem announce_unlocked (unlocked : s.schemaLocked c = false) :
    (announce c).outcome s = (.ok (), s.counted) := by
  unfold announce
  rw [Attempt.outcome_bind]
  exact requireSchema_unlocked unlocked

end Store

namespace Resting

variable {others : List Transaction} {c : Nat} {db : Database} {s : Store} {table sql : String}

theorem counted (rest : Resting others sql db s) : Resting others sql db s.counted :=
  ⟨rest.database, rest.transactions, rest.writer, rest.legible⟩

theorem schemaLocked (rest : Resting others sql db s) (quiet : Quiet others table) (c : Nat) :
    s.schemaLocked c = false := by
  unfold Store.schemaLocked Store.changedElsewhere
  rw [rest.transactions, List.any_eq_false]
  intro t member found
  have held := (Bool.and_eq_true_iff.mp found).2
  exact quiet.schema t member (List.contains_iff_mem.mp held)

theorem isOpen (rest : Resting others sql db s) (clear : Clear others c table) :
    s.isOpen c = false := by
  unfold Store.isOpen Store.transaction?
  rw [rest.transactions, Option.isSome_eq_false_iff, Option.isNone_iff_eq_none,
    List.find?_eq_none]
  intro t member found
  exact clear.elsewhere t member (eq_of_beq found)

theorem writtenElsewhere (rest : Resting others sql db s) : s.writtenElsewhere c = false := by
  unfold Store.writtenElsewhere
  rw [rest.writer]
  rfl

end Resting

namespace Inside

variable {others : List Transaction} {c : Nat} {x y : Content} {s : Store} {table sql : String}

theorem transaction? (inside : Inside others sql c x s) (clear : Clear others c table) :
    ∃ own, s.transaction? c = some own ∧ own.owed = x.owed := by
  obtain ⟨own, listed, connected, owed⟩ := inside.transactions
  refine ⟨own, ?_, owed⟩
  have absent : others.find? (fun t => t.connection == c) = none := by
    rw [List.find?_eq_none]
    intro t member found
    exact clear.elsewhere t member (eq_of_beq found)
  unfold Store.transaction?
  rw [listed, List.find?_append, absent, Option.none_or, List.find?_singleton]
  simp [connected]

theorem isOpen (inside : Inside others sql c x s) (clear : Clear others c table) :
    s.isOpen c = true := by
  obtain ⟨own, found, _⟩ := inside.transaction? clear
  rw [Store.isOpen, found]
  rfl

theorem owed (inside : Inside others sql c x s) (clear : Clear others c table) :
    s.owed c = x.owed := by
  obtain ⟨own, found, owed⟩ := inside.transaction? clear
  rw [Store.owed, found, ← owed]
  rfl

theorem schemaLocked (inside : Inside others sql c x s) (clear : Clear others c table) :
    s.schemaLocked c = false := by
  obtain ⟨own, listed, connected, _⟩ := inside.transactions
  unfold Store.schemaLocked Store.changedElsewhere
  rw [listed, List.any_append, Bool.or_eq_false_iff, List.any_eq_false]
  constructor
  · intro t member found
    have held := (Bool.and_eq_true_iff.mp found).2
    exact clear.schema t member (List.contains_iff_mem.mp held)
  · simp [connected]

/-- What is noted about the transaction of the connection does not concern the others. -/
theorem updateTransaction (inside : Inside others sql c x s) (clear : Clear others c table)
    {update : Transaction → Transaction} (database : s.database = y.database)
    (kept : ∀ t, t.connection = c → t.owed = x.owed →
      (update t).connection = c ∧ (update t).owed = y.owed) :
    Inside others sql c y (s.updateTransaction c update) := by
  obtain ⟨own, listed, connected, owed⟩ := inside.transactions
  refine ⟨database, ⟨update own, ?_, kept own connected owed⟩, inside.legible⟩
  have same : others.map (fun t => if t.connection == c then update t else t) = others := by
    refine (List.map_congr_left fun t member => ?_).trans (List.map_id others)
    exact if_neg fun found => clear.elsewhere t member (eq_of_beq found)
  unfold Store.updateTransaction
  dsimp only
  rw [listed, List.map_append, same, List.map_singleton, if_pos (by simp [connected])]

theorem activate (inside : Inside others sql c x s) (clear : Clear others c table) :
    Inside others sql c x (s.activate c) := by
  refine inside.updateTransaction clear inside.database fun t connected owed => ?_
  split
  · exact ⟨connected, owed⟩
  · exact ⟨connected, owed⟩

/-- Where there is no writer yet, the connection becomes the writer. -/
theorem makeWriter (inside : Inside others sql c x s) (clear : Clear others c table)
    (vacant : s.writer = none) : Writing others sql c x.database x (s.makeWriter c) := by
  obtain ⟨database, transactions, legible⟩ := inside.activate clear
  rw [Store.makeWriter_eq, vacant]
  refine ⟨⟨database, transactions, legible⟩, ?_⟩
  exact congrArg (fun db => some (Writer.mk c db false)) database

end Inside

namespace Writing

variable {others : List Transaction} {c : Nat} {before : Database} {x y : Content} {s : Store}
  {table sql : String}

theorem counted (writing : Writing others sql c before x s) :
    Writing others sql c before x s.counted :=
  ⟨⟨writing.database, writing.transactions, writing.legible⟩, writing.writer⟩

theorem remember (writing : Writing others sql c before x s) {d : Nat} {update : Memory → Memory}
    (legible : (s.remember d update).Legible sql) :
    Writing others sql c before x (s.remember d update) :=
  ⟨⟨writing.database, writing.transactions, legible⟩, writing.writer⟩

theorem writtenElsewhere (writing : Writing others sql c before x s) :
    s.writtenElsewhere c = false := by
  unfold Store.writtenElsewhere
  rw [writing.writer]
  simp

theorem makeWriter (writing : Writing others sql c before x s) (clear : Clear others c table) :
    Writing others sql c before x (s.makeWriter c) := by
  obtain ⟨database, transactions, legible⟩ := writing.activate clear
  rw [Store.makeWriter_eq, writing.writer]
  exact ⟨⟨database, transactions, legible⟩, rfl⟩

end Writing

end TableAccess
