import TableAccess.Session.Handle

/-!
# Waiting callers

The requests of a handle whose callers wait. Each one borrows a connection for as long as it lasts;
a connection on which something is still open when it comes back is rolled back then.
-/

namespace TableAccess

/-- A session inside a transaction, and whether the scope began the transaction. -/
structure Scope where
  session : Session
  began : Bool

namespace Handle.Blocking

variable {σ α : Type} [Machine σ]

/-- Answers a query, which is checked before a connection is borrowed. -/
def select (q : Query) : Attempt (Handle σ) Error (List Row) := do
  let current ← snapshot
  let plan ← Attempt.ofExcept (q.plan current)
  withConnection fun c => Connection.select c plan

def insert (table : String) (rows : NewRows) : Attempt (Handle σ) Error InsertReport :=
  withSession fun s => s.insert table rows

def update (table : String) (set : RowValues) (filter : Filter) : Attempt (Handle σ) Error Nat :=
  withSession fun s => s.update table set filter

def delete (table : String) (filter : Filter) : Attempt (Handle σ) Error Nat :=
  withSession fun s => s.delete table filter

/-- Updates rows by their keys. Each chunk is a transaction of its own, so the chunks
before one that fails stay done. -/
def bulkUpdate (table : String) (rows : List RowValues) (keys : List String)
    (asked : Option Nat) : Attempt (Handle σ) Error BulkReport := do
  let size ← chunkSize asked
  let current ← snapshot
  Tracker.tracked table .bulkUpdate (BulkUpdate.compile current table rows keys size)
    fun request =>
      match request with
      | some b =>
          let runChunk (chunk : List RowValues) : Attempt (Handle σ) Error Nat :=
            withConnection fun c => Connection.updateChunk c b chunk
          BulkReport.overChunks runChunk {} (b.chunks size)
      | none => pure {}

def dump (table : String) : Attempt (Handle σ) Error (List Row) :=
  withConnection fun c => Connection.dump c table

def create (new : NewTable) : Attempt (Handle σ) Error Nat :=
  withConnection fun c => Connection.create c new

def reload : Attempt (Handle σ) Error Unit := do
  let found ← (withConnection Connection.discover).observe
  install found

def isAlive : Attempt (Handle σ) Error Bool := do
  match ← (withConnection Connection.ping).observe with
  | .ok () => pure true
  | .error (_ : Error) => pure false

def spin : Attempt (Handle σ) Error α := do
  let limit ← Attempt.reading fun h => h.settings.operationTimeout
  withConnection fun c => Connection.spin c limit

/-! ## Scopes -/

def enterScope (mode : Mode) : Attempt (Handle σ) Error Scope := do
  let c ← acquire
  let current ← snapshot
  match ← (onStore (Connection.enter c mode)).observe with
  | .ok began => pure ⟨⟨c, current⟩, began⟩
  | .error e =>
      Attempt.changing (release c)
      throw e

/-- Leaves the bracket of a scope as its body turned out, and gives the connection back. -/
def leaveScope (scope : Scope) (outcome : Except Error α) : Attempt (Handle σ) Error α := do
  let c := scope.session.connection
  let result ← (onStore (Connection.leave c scope.began outcome)).observe
  Attempt.changing (release c)
  Attempt.ofExcept result

end Handle.Blocking

end TableAccess
