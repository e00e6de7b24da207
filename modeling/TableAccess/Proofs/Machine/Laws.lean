import TableAccess.Proofs.Store.Effects
import TableAccess.Proofs.Store.WholeRows
import TableAccess.Session.Basic

/-!
# Laws of a machine

What sessions and handles rely on, whatever store they run on. An aspect of a store tells which of
its states hold a database while none of some connections has a transaction open, and which ones
come about inside a transaction of one of them. The laws say how connections move between such
states.

A transaction is the business of brackets alone only as long as no statement ends it: a table is
steady if none that names it does. On a plain table a statement moreover does just what its change
does. A table is not plain if it has a conflict clause, which puts something else in the place of a
refusal, or a trigger, or a generated column, or if a reference to or from it comes with an action.
Conditions on its rows do no harm: they are one more reason to refuse a statement, and a refusal
leaves the content as it was.
-/

namespace TableAccess.Machine

open Attempt (Ends)

variable {σ : Type}

/-- What the states of a store amount to for some of its connections. -/
structure Aspect (σ : Type) where
  known : Nat → Prop
  /-- A database is held, and none of the known connections has a transaction open. -/
  Rest : Database → σ → Prop
  /-- A known connection has begun a transaction on a database and has come to a content. -/
  Within : Nat → Database → Content → σ → Prop

/-- Work on a connection that changes nothing of what an aspect tells. -/
structure Aspect.Spares {ε α : Type} (v : Aspect σ) (c : Nat) (a : Attempt σ ε α) : Prop where
  rest : ∀ db, a.Keeps (v.Rest db)
  within : ∀ db x, a.Keeps (v.Within c db x)

/-- A state inside a transaction, whatever its content. -/
def Aspect.Inside (v : Aspect σ) (c : Nat) (db : Database) (s : σ) : Prop := ∃ x, v.Within c db x s

/-- A state without a transaction, whatever is held. -/
def Aspect.Idle (v : Aspect σ) (s : σ) : Prop := ∃ db, v.Rest db s

namespace Aspect.Spares

variable {ε δ α β : Type} {v : Aspect σ} {c : Nat} {a : Attempt σ ε α}

theorem inside {db : Database} (spares : v.Spares c a) : a.Keeps (v.Inside c db) :=
  fun s ⟨x, within⟩ => ⟨x, spares.within db x s within⟩

theorem idle (spares : v.Spares c a) : a.Keeps v.Idle :=
  fun s ⟨db, rest⟩ => ⟨db, spares.rest db s rest⟩

theorem ofExcept (result : Except ε α) : v.Spares c (Attempt.ofExcept result) :=
  ⟨fun _ => .ofExcept result, fun _ _ => .ofExcept result⟩

theorem throw (e : ε) : v.Spares c (MonadExcept.throw e : Attempt σ ε α) :=
  ⟨fun _ => .throw e, fun _ _ => .throw e⟩

theorem bind {next : α → Attempt σ ε β} (first : v.Spares c a)
    (rest : ∀ w, v.Spares c (next w)) : v.Spares c (a >>= next) :=
  ⟨fun db => (first.rest db).bind fun w => (rest w).rest db,
    fun db x => (first.within db x).bind fun w => (rest w).within db x⟩

theorem mapError {rename : ε → δ} (spares : v.Spares c a) : v.Spares c (a.mapError rename) :=
  ⟨fun db => (spares.rest db).mapError, fun db x => (spares.within db x).mapError⟩

end Aspect.Spares

variable [Machine σ]

/-- Connections that are borrowed and given back without a transaction. -/
structure Lends (v : Aspect σ) : Prop where
  unique {db other : Database} {s : σ} : v.Rest db s → v.Rest other s → db = other
  closed {c : Nat} {db : Database} {s : σ} : v.known c → v.Rest db s → isOpen s c = false
  configure {c : Nat} {db : Database} : v.known c →
    (Machine.configure c : Attempt σ Fault Unit).Keeps (v.Rest db)
  close {c : Nat} {db : Database} {s : σ} : v.known c → v.Rest db s → v.Rest db (Machine.close c s)

/-- Transactions that begin with the content that is held, and end with it or with what they have
made of it. -/
structure Transacts (v : Aspect σ) : Prop extends Lends v where
  opened {c : Nat} {db : Database} {x : Content} {s : σ} : v.Within c db x s → isOpen s c = true
  begin {c : Nat} {db : Database} {s : σ} (mode : Mode) : v.known c → v.Rest db s →
    (Machine.begin c mode : Attempt σ Fault Unit).Ends s
      (fun _ t => v.Within c db { database := db } t) fun _ t => v.Rest db t
  commit {c : Nat} {db : Database} {x : Content} {s : σ} : v.Within c db x s →
    (Machine.commit c : Attempt σ Fault Unit).Ends s
      (fun _ t => ¬ 0 < x.owed ∧ v.Rest x.database t) fun _ t => v.Within c db x t
  /-- Without a transaction there is nothing to commit. -/
  commit_closed {c : Nat} {db : Database} {s : σ} : v.known c → v.Rest db s →
    (Machine.commit c : Attempt σ Fault Unit).Ends s (fun _ _ => False) fun _ t => v.Rest db t
  rollback {c : Nat} {db : Database} {x : Content} {s : σ} : v.Within c db x s →
    (Machine.rollback c : Attempt σ Fault Unit).Ends s (fun _ t => v.Rest db t) fun _ _ => False
  rollback_closed {c : Nat} {db : Database} {s : σ} : v.known c → v.Rest db s →
    (Machine.rollback c : Attempt σ Fault Unit).outcome s = (.ok (), s)
  interrupt {c : Nat} {db : Database} {x : Content} {s : σ} : v.Within c db x s →
    v.Rest db (Machine.interrupt c s)
  interrupt_closed {c : Nat} {db : Database} {s : σ} : v.known c → v.Rest db s →
    v.Rest db (Machine.interrupt c s)

/-- Statements on connections: what they do on steady and on plain tables. -/
structure Laws (v : Aspect σ) (steady plain : String → Prop) : Prop extends Transacts v where
  steady_of_plain {table : String} : plain table → steady table
  select {c : Nat} (q : Select) : v.known c →
    v.Spares c (Machine.select c q : Attempt σ Fault (List Row))
  dump {c : Nat} (table : String) : v.known c →
    v.Spares c (Machine.dump c table : Attempt σ Fault (List Row))
  discover {c : Nat} (whole : String) : v.known c →
    v.Spares c (Machine.discover c whole : Attempt σ (String × Fault) Snapshot)
  ping {c : Nat} : v.known c → v.Spares c (Machine.ping c : Attempt σ Fault Unit)
  spin {c : Nat} : v.known c → v.Spares c (Machine.spin c Connection.endless : Attempt σ Fault Unit)
  takeInsert {c : Nat} (i : Insert) : v.known c →
    v.Spares c (Machine.takeInsert c i : Attempt σ Fault Unit)
  takeBulk {c : Nat} (b : BulkUpdate) : v.known c →
    v.Spares c (Machine.takeBulk c b : Attempt σ Fault Unit)
  /-- Without a transaction a table is created at once. -/
  create_idle {c : Nat} (new : NewTable) : v.known c →
    (Machine.create c new : Attempt σ Fault Nat).Keeps v.Idle
  create {c : Nat} {db : Database} {x : Content} {s : σ} (new : NewTable) : v.Within c db x s →
    (Machine.create c new : Attempt σ Fault Nat).Ends s
      (fun _ t => ∃ y, (Change.create new).outcome x = (.ok (), y) ∧ v.Within c db y t)
      fun _ t => ∃ y, y.database = x.database ∧ v.Within c db y t
  insertRow_steady {c : Nat} {db : Database} {i : Insert} (row : List Value) : steady i.table →
    (Machine.insertRow c i row : Attempt σ Fault Unit).Keeps (v.Inside c db)
  update_steady {c : Nat} {db : Database} {u : Update} : steady u.table →
    (Machine.update c u : Attempt σ Fault Nat).Keeps (v.Inside c db)
  delete_steady {c : Nat} {db : Database} {d : Delete} : steady d.table →
    (Machine.delete c d : Attempt σ Fault Nat).Keeps (v.Inside c db)
  updateRow_steady {c : Nat} {db : Database} {b : BulkUpdate} (row : RowValues) :
    steady b.table → (Machine.updateRow c b row : Attempt σ Fault Nat).Keeps (v.Inside c db)
  /-- The number of the new row is remembered where the table numbers its rows. -/
  insertRow {c : Nat} {db : Database} {x : Content} {s : σ} {i : Insert} (row : List Value) :
    plain i.table → v.Within c db x s →
    (Machine.insertRow c i row : Attempt σ Fault Unit).Ends s
      (fun _ t => ∃ number y, (i.rowChange row).outcome x = (.ok number, y) ∧
        v.Within c db y t ∧ ∀ stored, x.database.table? i.table = some stored →
          stored.definition.withoutRowid = false → lastNumber t c = number)
      fun fault t => ∃ y, (y = x ∨ (i.rowChange row).outcome x = (.error fault, y)) ∧
        v.Within c db y t
  /-- Without a transaction a row is put in at once. -/
  insertRow_alone {c : Nat} {db : Database} {s : σ} {i : Insert} (row : List Value) :
    plain i.table → v.known c → v.Rest db s →
    (Machine.insertRow c i row : Attempt σ Fault Unit).Ends s
      (fun _ t => ∃ number y, (i.rowChange row).outcome { database := db } = (.ok number, y) ∧
        v.Rest y.database t ∧ ∀ stored, db.table? i.table = some stored →
          stored.definition.withoutRowid = false → lastNumber t c = number)
      fun _ t => v.Rest db t
  update {c : Nat} {db : Database} {x : Content} {s : σ} {u : Update} :
    plain u.table → v.Within c db x s →
    (Machine.update c u : Attempt σ Fault Nat).Ends s
      (fun n t => ∃ y, x.database.prepareUpdate u = .ok () ∧
        (Change.update u).outcome x = (.ok n, y) ∧ v.Within c db y t)
      fun _ t => ∃ y, y.database = x.database ∧ v.Within c db y t
  delete {c : Nat} {db : Database} {x : Content} {s : σ} {d : Delete} :
    plain d.table → v.Within c db x s →
    (Machine.delete c d : Attempt σ Fault Nat).Ends s
      (fun n t => ∃ y, x.database.prepareDelete d = .ok () ∧
        (Change.delete d).outcome x = (.ok n, y) ∧ v.Within c db y t)
      fun _ t => ∃ y, y.database = x.database ∧ v.Within c db y t
  updateRow {c : Nat} {db : Database} {x : Content} {s : σ} {b : BulkUpdate} (row : RowValues) :
    plain b.table → v.Within c db x s →
    (Machine.updateRow c b row : Attempt σ Fault Nat).Ends s
      (fun n t => ∃ y, (b.rowChange row).outcome x = (.ok n, y) ∧ v.Within c db y t)
      fun fault t => ∃ y, (y = x ∨ (b.rowChange row).outcome x = (.error fault, y)) ∧
        v.Within c db y t

/-- A query of all columns of a plain table shows those of its rows that satisfy the condition. -/
def Shows (v : Aspect σ) (plain : String → Prop) : Prop :=
  ∀ (c : Nat) (db : Database) (s : σ) (q : Select) (stored : StoredTable), v.known c →
    plain q.table → v.Rest db s → db.table? q.table = some stored →
    q.Whole stored.definition.describe →
    (Machine.select c q : Attempt σ Fault (List Row)).Ends s
      (fun rows _ => stored.Shown q.condition rows) fun _ _ => True

end TableAccess.Machine
