import TableAccess.Session.Async
import TableAccess.Settings

/-!
# Requests

What a caller asks of a handle or of a session, and what a caller does in a session: one request
after the other, each of which may depend on the replies to those before it.
-/

namespace TableAccess

inductive Request where
  | select (query : Query)
  | insert (table : String) (rows : NewRows)
  | update (table : String) (set : RowValues) (filter : Filter)
  | delete (table : String) (filter : Filter)
  /-- A bulk update, in chunks of the default size if none is asked for. -/
  | bulkUpdate (table : String) (rows : List RowValues) (keys : List String)
      (chunkSize : Option Nat)
  | dump (table : String)
  | create (new : NewTable)
  /-- The tables of the snapshot in force. -/
  | catalog
  /-- A statement that does not end within the time limit. -/
  | runaway
  /-- A request that failed before it was made. -/
  | fail (error : Error)

inductive Reply where
  | rows (rows : List Row)
  | inserted (report : InsertReport)
  | changed (count : Nat)
  | updated (report : BulkReport)
  | tables (tables : List Table)
  /-- The number under which a connection was lent. -/
  | lent (slot : Nat)
  | done

namespace Request

variable {σ : Type} [Machine σ]

def inSession (s : Session) (settings : Settings) : Request → Attempt σ Error Reply
  | select query => do pure (.rows (← s.select query))
  | insert table rows => do pure (.inserted (← s.insert table rows))
  | update table set filter => do pure (.changed (← s.update table set filter))
  | delete table filter => do pure (.changed (← s.delete table filter))
  | bulkUpdate table rows keys size => do
      pure (.updated (← s.bulkUpdate table rows keys (size.getD settings.defaultChunkSize)))
  | dump table => do pure (.rows (← Connection.dump s.connection table))
  | create new => do pure (.changed (← Connection.create s.connection new))
  | catalog => pure (.tables s.snapshot.tables.values)
  | runaway => Connection.spin s.connection settings.operationTimeout
  | fail e => throw e

def inAsyncSession (s : AsyncSession) (settings : Settings) :
    Request → Attempt (Timed σ) Error Reply
  | select query => do pure (.rows (← s.select query))
  | insert table rows => do pure (.inserted (← s.insert table rows))
  | update table set filter => do pure (.changed (← s.update table set filter))
  | delete table filter => do pure (.changed (← s.delete table filter))
  | bulkUpdate table rows keys size => do
      pure (.updated (← s.bulkUpdate table rows keys (size.getD settings.defaultChunkSize)))
  | dump table => do pure (.rows (← s.dump table))
  | create new => do pure (.changed (← s.create new))
  | catalog => pure (.tables s.snapshot.tables.values)
  | runaway => s.spin
  | fail e => throw e

end Request

/-- What a caller does in a session: requests, each of which may depend on the replies to those
before it, and an end. -/
inductive Work (α : Type) where
  | finish (result : Except Error α)
  | call (request : Request) (next : Except Error Reply → Work α)

namespace Work

variable {σ α : Type} [Machine σ]

def inSession (s : Session) (settings : Settings) : Work α → Attempt σ Error α
  | finish result => .ofExcept result
  | call request next => do
      let reply ← (request.inSession s settings).observe
      (next reply).inSession s settings

def inAsyncSession (s : AsyncSession) (settings : Settings) :
    Work α → Attempt (Timed σ) Error α
  | finish result => .ofExcept result
  | call request next => do
      let reply ← (request.inAsyncSession s settings).observe
      (next reply).inAsyncSession s settings

end Work

end TableAccess
