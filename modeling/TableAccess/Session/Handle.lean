import TableAccess.Row
import TableAccess.Schema.Catalog
import TableAccess.Session.Basic
import TableAccess.Session.Location
import TableAccess.Session.Pool
import TableAccess.Settings
import TableAccess.Store.Statement

/-!
# Handles

A handle serves requests on a database: it holds the catalog and the pool of connections to the
store, which may be any machine. There are two kinds of handles: on one a caller waits until its
request is done, on the other requests are suspended meanwhile. Both lend connections from their
pool, but they set them up and take them back differently.
-/

namespace TableAccess

inductive Engine where
  /-- A caller waits until its request is done. -/
  | blocking
  /-- Requests are suspended while they wait. -/
  | async
  deriving DecidableEq, Repr, Inhabited

structure Handle (σ : Type := Store) where
  engine : Engine
  settings : Settings
  catalog : Catalog
  pool : Pool := {}
  store : σ

namespace Engine

def order : Engine → LendingOrder
  | blocking => .lastReturned
  | async => .firstReturned

def openFailure (engine : Engine) (location : String) (fault : Fault) : Error :=
  match engine with
  | blocking => .connectionFailure s!"Failed to open '{location}': {fault.message}"
  | async =>
      .connectionFailure
        s!"Failed to acquire connection: Error occurred while creating a new object: {fault.message}"

def ofRefusal (engine : Engine) (settings : Settings) : Refusal → Error
  | .cannotOpen fault => engine.openFailure settings.connection fault
  | .exhausted active max =>
      match engine with
      | blocking => .poolExhausted active max
      | async => .connectionTimeout settings.timeout

end Engine

namespace Handle

variable {σ α : Type} [Machine σ]

def onStore (a : Attempt σ Error α) : Attempt (Handle σ) Error α :=
  a.onPart (·.store) fun h store => { h with store }

def onPool (a : Attempt Pool Refusal α) : Attempt (Handle σ) Error α := .of fun h =>
  let (result, pool) := a.outcome h.pool
  (result.mapError (h.engine.ofRefusal h.settings), { h with pool })

def snapshot : Attempt (Handle σ) Error Snapshot := .reading fun h => h.catalog.current

def stats (h : Handle σ) : Pool.Stats := h.pool.stats

/-! ## Giving connections back -/

def discard (c : Nat) (h : Handle σ) : Handle σ :=
  { h with store := Machine.close c h.store, pool := h.pool.discard }

def giveBack (c : Nat) (h : Handle σ) : Handle σ :=
  { h with pool := h.pool.keep h.engine.order c }

/-- Undoes what is still open on a connection and puts it back. A connection for which that fails
is closed. -/
def settle (c : Nat) (h : Handle σ) : Handle σ :=
  let (undone, store) := (Connection.rollback c).outcome h.store
  match undone with
  | .ok () => giveBack c { h with store }
  | .error (_ : Error) => discard c { h with store }

/-- Takes a connection back that counts as being without a transaction. Only where callers wait
it is looked at. -/
def release (c : Nat) (h : Handle σ) : Handle σ :=
  match h.engine with
  | .blocking => settle c h
  | .async => giveBack c h

/-! ## Borrowing connections -/

def openConnection : Attempt (Handle σ) Error Nat := do
  let settings ← Attempt.reading fun h => h.settings
  onPool (Pool.lendNew settings.maxSize (Location.check settings.connection))

/-- Sets up a lent connection; one for which that fails is treated as told. -/
def configured (c : Nat) (refused : Handle σ → Handle σ) : Attempt (Handle σ) Error Nat := do
  match ← (onStore (Connection.configure c)).observe with
  | .ok () => pure c
  | .error (e : Error) =>
      Attempt.changing refused
      throw e

/-- Lends an idle connection that answers. Those that do not are closed; the number bounds how
many there are. -/
def lendAnswering : Nat → Attempt (Handle σ) Error (Option Nat)
  | 0 => pure none
  | count + 1 => do
      match (← Attempt.reading fun h => h.pool).lendIdle? with
      | none => pure none
      | some (c, pool) =>
          Attempt.changing fun h => { h with pool }
          if Machine.answers (← Attempt.reading fun h => h.store) c then pure (some c)
          else
            Attempt.changing (discard c)
            lendAnswering count

/-- Borrows a connection. A caller that waits is lent an idle one as it is, and a new one is
set up once. Where requests are suspended, an idle connection has to answer first, and
every connection is set up each time it is lent. -/
def acquire : Attempt (Handle σ) Error Nat := do
  match ← Attempt.reading fun h => h.engine with
  | .blocking =>
      match (← Attempt.reading fun h => h.pool).lendIdle? with
      | some (c, pool) =>
          Attempt.changing fun h => { h with pool }
          pure c
      | none => do
          let c ← openConnection
          configured c (discard c)
  | .async => do
      let idle ← Attempt.reading fun h => h.pool.idle.length
      let c ← match ← lendAnswering idle with
        | some c => pure c
        | none => openConnection
      configured c (release c)

def withConnection (work : Nat → Attempt σ Error α) : Attempt (Handle σ) Error α := do
  let c ← acquire
  let outcome ← (onStore (work c)).observe
  Attempt.changing (release c)
  Attempt.ofExcept outcome

def withSession (work : Session → Attempt σ Error α) : Attempt (Handle σ) Error α := do
  let current ← snapshot
  withConnection fun c => work ⟨c, current⟩

def chunkSize (asked : Option Nat) : Attempt (Handle σ) Error Nat :=
  .reading fun h => asked.getD h.settings.defaultChunkSize

/-- Replaces the snapshot in force by what was found, unless that failed. -/
def install (found : Except Error Snapshot) : Attempt (Handle σ) Error Unit := .of fun h =>
  let (result, catalog) := h.catalog.reload found
  (result, { h with catalog })

end Handle

end TableAccess
