import TableAccess.Session.Async
import TableAccess.Session.Handle

/-!
# Suspended callers

The requests of a handle whose callers are suspended. Each one opens a session on a borrowed
connection. When the session is dropped, only its own note of an open transaction tells whether
the connection is rolled back before it is put back.
-/

namespace TableAccess.Handle.Async

variable {σ α : Type} [Machine σ]

def onStore (a : Attempt (Timed σ) Error α) : Attempt (Timed (Handle σ)) Error α :=
  Timed.onPart (·.store) (fun h store => { h with store }) a

def openSession : Attempt (Timed (Handle σ)) Error AsyncSession := do
  let connection ← Timed.lift acquire
  let snapshot ← Timed.lift snapshot
  let limit ← Timed.lift (Attempt.reading fun h => h.settings.operationTimeout)
  pure { connection, snapshot, limit }

def drop (s : AsyncSession) (h : Handle σ) : Handle σ :=
  if s.transactionOpen then settle s.connection h else giveBack s.connection h

def withSession (work : AsyncSession → Attempt (Timed σ) Error α) :
    Attempt (Timed (Handle σ)) Error α := do
  let s ← openSession
  let outcome ← (onStore (work s)).observe
  Timed.lift (Attempt.changing (drop s))
  Attempt.ofExcept outcome

/-! ## Requests -/

/-- Answers a query, which is checked before a session is opened. -/
def select (q : Query) : Attempt (Timed (Handle σ)) Error (List Row) := do
  let current ← Timed.lift snapshot
  let plan ← Attempt.ofExcept (q.plan current)
  withSession fun s => s.run (Connection.select s.connection plan)

def insert (table : String) (rows : NewRows) : Attempt (Timed (Handle σ)) Error InsertReport :=
  withSession fun s => s.insert table rows

def update (table : String) (set : RowValues) (filter : Filter) :
    Attempt (Timed (Handle σ)) Error Nat :=
  withSession fun s => s.update table set filter

def delete (table : String) (filter : Filter) : Attempt (Timed (Handle σ)) Error Nat :=
  withSession fun s => s.delete table filter

def updateChunks (b : BulkUpdate) (report : BulkReport) :
    List (List RowValues) → Attempt (Timed (Handle σ)) Error BulkReport
  | [] => pure report
  | chunk :: rest => do
      let affected ← withSession fun s =>
        s.runToCompletion (Connection.updateChunk s.connection b chunk)
      updateChunks b ⟨report.chunks + 1, report.affected + affected⟩ rest

def bulkUpdate (table : String) (rows : List RowValues) (keys : List String)
    (asked : Option Nat) : Attempt (Timed (Handle σ)) Error BulkReport := do
  let size ← Timed.lift (chunkSize asked)
  let current ← Timed.lift snapshot
  Tracker.tracked table .bulkUpdate (BulkUpdate.compile current table rows keys size)
    fun request =>
      match request with
      | some b => updateChunks b {} (b.chunks size)
      | none => pure {}

def dump (table : String) : Attempt (Timed (Handle σ)) Error (List Row) :=
  withSession fun s => s.dump table

def create (new : NewTable) : Attempt (Timed (Handle σ)) Error Nat :=
  withSession fun s => s.create new

/-- Discovers what the store holds and puts it in force, as one piece of work. -/
def discoverInto (c : Nat) : Attempt (Handle σ) Error Unit := do
  let found ← (Handle.onStore (Connection.discover c)).observe
  install found

def reload : Attempt (Timed (Handle σ)) Error Unit := do
  let s ← openSession
  let interrupt (h : Handle σ) : Handle σ :=
    { h with store := Machine.interrupt s.connection h.store }
  let outcome ← (Timed.await s.limit interrupt (discoverInto s.connection)).observe
  Timed.lift (Attempt.changing (drop s))
  Attempt.ofExcept outcome

def isAlive : Attempt (Timed (Handle σ)) Error Bool := do
  match ← (withSession fun s => s.run (Connection.ping s.connection)).observe with
  | .ok () => pure true
  | .error (_ : Error) => pure false

def spin : Attempt (Timed (Handle σ)) Error α := withSession fun s => s.spin

/-! ## Scopes -/

def enterScope (mode : Mode) : Attempt (Timed (Handle σ)) Error AsyncSession := do
  let s ← openSession
  match ← (onStore (s.begin mode)).observe with
  | .ok begun => pure begun
  | .error e =>
      Timed.lift (Attempt.changing (drop s))
      throw e

/-- Ends the transaction of a scope as its body turned out, and drops the session. -/
def leaveScope (s : AsyncSession) (outcome : Except Error α) :
    Attempt (Timed (Handle σ)) Error α := do
  let (result, left) ← onStore (s.leave outcome)
  Timed.lift (Attempt.changing (drop left))
  Attempt.ofExcept result

def scope (mode : Mode) (body : AsyncSession → Attempt (Timed (Handle σ)) Error α) :
    Attempt (Timed (Handle σ)) Error α := do
  let s ← enterScope mode
  let outcome ← (body s).observe
  leaveScope s outcome

end TableAccess.Handle.Async
