import TableAccess.Session.Blocking
import TableAccess.Session.Request
import TableAccess.Session.Suspended

/-!
# Requests of a handle

What a handle serves, by its engine. On a handle whose callers are suspended all is done in time
here; what becomes of a request for which that is not so is told by its own definition.
-/

namespace TableAccess

namespace AsyncSession

def toScope (s : AsyncSession) : Scope := ⟨⟨s.connection, s.snapshot⟩, s.transactionOpen⟩

end AsyncSession

def Scope.suspended (scope : Scope) (limit : Nat) : AsyncSession :=
  { connection := scope.session.connection
    snapshot := scope.session.snapshot
    limit
    transactionOpen := scope.began }

namespace Handle

variable {σ α : Type} [Machine σ]

def byEngine (waiting : Attempt (Handle σ) Error α)
    (suspended : Attempt (Timed (Handle σ)) Error α) : Attempt (Handle σ) Error α := do
  match ← Attempt.reading fun h => h.engine with
  | .blocking => waiting
  | .async => Timed.inTime suspended

def select (q : Query) : Attempt (Handle σ) Error (List Row) :=
  byEngine (Blocking.select q) (Async.select q)

def insert (table : String) (rows : NewRows) : Attempt (Handle σ) Error InsertReport :=
  byEngine (Blocking.insert table rows) (Async.insert table rows)

/-- Updates the rows that satisfy a filter, and tells how many there were. -/
def update (table : String) (set : RowValues) (filter : Filter) : Attempt (Handle σ) Error Nat :=
  byEngine (Blocking.update table set filter) (Async.update table set filter)

/-- Removes the rows that satisfy a filter, and tells how many there were. -/
def delete (table : String) (filter : Filter) : Attempt (Handle σ) Error Nat :=
  byEngine (Blocking.delete table filter) (Async.delete table filter)

/-- Updates rows by their keys, in chunks of the default size if none is asked for. -/
def bulkUpdate (table : String) (rows : List RowValues) (keys : List String)
    (asked : Option Nat) : Attempt (Handle σ) Error BulkReport :=
  byEngine (Blocking.bulkUpdate table rows keys asked) (Async.bulkUpdate table rows keys asked)

def dump (table : String) : Attempt (Handle σ) Error (List Row) :=
  byEngine (Blocking.dump table) (Async.dump table)

/-- Creates a table or a view, and tells how many rows its connection changed last. The
catalog is as it was. -/
def create (new : NewTable) : Attempt (Handle σ) Error Nat :=
  byEngine (Blocking.create new) (Async.create new)

/-- Replaces the snapshot in force by what the store holds. -/
def reload : Attempt (Handle σ) Error Unit := byEngine Blocking.reload Async.reload

def isAlive : Attempt (Handle σ) Error Bool := byEngine Blocking.isAlive Async.isAlive

/-- Runs a statement that does not end within the time limit. -/
def spin : Attempt (Handle σ) Error α := byEngine Blocking.spin Async.spin

/-! ## Scopes -/

def enterScope (mode : Mode) : Attempt (Handle σ) Error Scope :=
  byEngine (Blocking.enterScope mode) do
    let s ← Async.enterScope mode
    pure s.toScope

/-- Ends the transaction of a scope as its body turned out, and gives the connection
back. -/
def leaveScope (scope : Scope) (outcome : Except Error α) : Attempt (Handle σ) Error α :=
  byEngine (Blocking.leaveScope scope outcome) do
    let limit ← Timed.lift (Attempt.reading fun h => h.settings.operationTimeout)
    Async.leaveScope (scope.suspended limit) outcome

/-- Gives up a scope whose caller has gone. -/
def abandonScope (scope : Scope) (h : Handle σ) : Handle σ :=
  match h.engine with
  | .blocking => release scope.session.connection h
  | .async => Async.drop (scope.suspended h.settings.operationTimeout) h

def scope (mode : Mode) (body : Scope → Attempt (Handle σ) Error α) :
    Attempt (Handle σ) Error α := do
  let opened ← enterScope mode
  let outcome ← (body opened).observe
  leaveScope opened outcome

/-! ## Opening -/

/-- Opens a handle around a catalog on a fresh store, at a location in memory with a shared cache. One
connection is opened at once, so that a location without a store is noticed. -/
def openWith (engine : Engine) (settings : Settings) (catalog : Catalog) :
    Except Error Handle := do
  settings.validate
  match (withConnection fun _ => pure ()).outcome
    ({ engine, settings, catalog, store := {} } : Handle) with
  | (.ok (), h) => pure h
  | (.error e, _) => throw e

/-- Opens a handle and puts what the store holds in force. -/
def connect (engine : Engine) (settings : Settings) : Except Error Handle := do
  let h ← openWith engine settings default
  match reload.outcome h with
  | (.ok (), connected) => pure connected
  | (.error e, _) => throw e

end Handle

/-! ## Requests -/

variable {σ α : Type} [Machine σ]

def Request.onHandle : Request → Attempt (Handle σ) Error Reply
  | select query => do pure (.rows (← Handle.select query))
  | insert table rows => do pure (.inserted (← Handle.insert table rows))
  | update table set filter => do pure (.changed (← Handle.update table set filter))
  | delete table filter => do pure (.changed (← Handle.delete table filter))
  | bulkUpdate table rows keys size => do
      pure (.updated (← Handle.bulkUpdate table rows keys size))
  | dump table => do pure (.rows (← Handle.dump table))
  | create new => do pure (.changed (← Handle.create new))
  | catalog => do pure (.tables (← Handle.snapshot).tables.values)
  | runaway => Handle.spin
  | fail e => throw e

/-- Serves a request of a suspended caller, for which it may wait in vain. -/
def Request.suspended : Request → Attempt (Timed (Handle σ)) Error Reply
  | select query => do pure (.rows (← Handle.Async.select query))
  | insert table rows => do pure (.inserted (← Handle.Async.insert table rows))
  | update table set filter => do pure (.changed (← Handle.Async.update table set filter))
  | delete table filter => do pure (.changed (← Handle.Async.delete table filter))
  | bulkUpdate table rows keys size => do
      pure (.updated (← Handle.Async.bulkUpdate table rows keys size))
  | dump table => do pure (.rows (← Handle.Async.dump table))
  | create new => do pure (.changed (← Handle.Async.create new))
  | catalog => do pure (.tables (← Timed.lift Handle.snapshot).tables.values)
  | runaway => Handle.Async.spin
  | fail e => throw e

def Scope.serve (scope : Scope) (request : Request) : Attempt (Handle σ) Error Reply := do
  let settings ← Attempt.reading fun (h : Handle σ) => h.settings
  Handle.byEngine (Handle.onStore (request.inSession scope.session settings))
    (Handle.Async.onStore
      (request.inAsyncSession (scope.suspended settings.operationTimeout) settings))

def Work.run (scope : Scope) (work : Work α) : Attempt (Handle σ) Error α := do
  let settings ← Attempt.reading fun (h : Handle σ) => h.settings
  Handle.byEngine (Handle.onStore (work.inSession scope.session settings))
    (Handle.Async.onStore
      (work.inAsyncSession (scope.suspended settings.operationTimeout) settings))

def Work.runSuspended (s : AsyncSession) (work : Work α) :
    Attempt (Timed (Handle σ)) Error α := do
  let settings ← Timed.lift (Attempt.reading fun (h : Handle σ) => h.settings)
  Handle.Async.onStore (work.inAsyncSession s settings)

end TableAccess
