import TableAccess.Attempt
import TableAccess.Fault
import TableAccess.Mutation.BulkUpdate
import TableAccess.Mutation.Insert
import TableAccess.Mutation.Update
import TableAccess.Query.Select
import TableAccess.Row
import TableAccess.Schema.Snapshot
import TableAccess.Store.Creation
import TableAccess.Store.Mode

/-!
# Machines

What is asked of a store, whatever it is made of: its connections begin and end transactions and
run statements. A statement for several rows is taken up once and then run for one row after the
other. Sessions and brackets use a store in no other way, so that what is shown of them holds of
every store that keeps the laws it is shown from.
-/

namespace TableAccess

/-- A store as its connections use it. -/
class Machine (σ : Type) where
  /-- Whether a connection has a transaction open. -/
  isOpen : σ → Nat → Bool
  /-- Whether a connection answers at all. -/
  answers : σ → Nat → Bool
  /-- Sets a connection up for its next use. -/
  configure : Nat → Attempt σ Fault Unit
  begin : Nat → Mode → Attempt σ Fault Unit
  commit : Nat → Attempt σ Fault Unit
  /-- Undoes an open transaction; without one nothing is run. -/
  rollback : Nat → Attempt σ Fault Unit
  /-- Stops the statement that a connection is running. A change that is stopped inside a
  transaction undoes all of it. -/
  interrupt : Nat → σ → σ
  /-- Closes a connection, whose transaction ends with it undone. -/
  close : Nat → σ → σ
  /-- The number of the row that a connection inserted last. -/
  lastNumber : σ → Nat → Int64
  select : Nat → Select → Attempt σ Fault (List Row)
  takeInsert : Nat → Insert → Attempt σ Fault Unit
  insertRow : Nat → Insert → List Value → Attempt σ Fault Unit
  update : Nat → Update → Attempt σ Fault Nat
  delete : Nat → Delete → Attempt σ Fault Nat
  takeBulk : Nat → BulkUpdate → Attempt σ Fault Unit
  updateRow : Nat → BulkUpdate → RowValues → Attempt σ Fault Nat
  /-- All columns and rows of a table or a view. -/
  dump : Nat → String → Attempt σ Fault (List Row)
  create : Nat → NewTable → Attempt σ Fault Nat
  /-- The descriptions of all tables and views. A fault is told with the name that it is about,
  which is a given one if it is about all of them. -/
  discover : Nat → String → Attempt σ (String × Fault) Snapshot
  ping : Nat → Attempt σ Fault Unit
  /-- Runs a statement that does not end, up to the point where it would. -/
  spin : Nat → String → Attempt σ Fault Unit

namespace Machine

variable {σ : Type} [Machine σ]

def insertRows (c : Nat) (i : Insert) : List (List Value) → Attempt σ Fault Nat
  | [] => pure 0
  | row :: rest => do
      insertRow c i row
      let later ← insertRows c i rest
      pure (later + 1)

/-- Runs an insert, and tells how many rows there were. -/
def insert (c : Nat) (i : Insert) : Attempt σ Fault Nat := do
  takeInsert c i
  insertRows c i i.rows

/-- Updates by rows of a bulk update one after the other, and tells how many stored rows were
changed. -/
def updateRows (c : Nat) (b : BulkUpdate) : List RowValues → Attempt σ Fault Nat
  | [] => pure 0
  | row :: rest => do
      let changed ← updateRow c b row
      let later ← updateRows c b rest
      pure (changed + later)

/-- Runs some rows of a bulk update, and tells how many stored rows were changed. -/
def updateBatch (c : Nat) (b : BulkUpdate) (rows : List RowValues) : Attempt σ Fault Nat := do
  takeBulk c b
  updateRows c b rows

end Machine

end TableAccess
