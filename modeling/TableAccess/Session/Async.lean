import TableAccess.Session.Basic

/-!
# Sessions of suspended callers

A caller that is suspended while its work runs waits only so long. When the time is up the caller
goes on with an error and the work is told to stop. Whether it had begun by then, and whether it
could still be stopped, is not up to the caller: it is the fate of the work.
-/

namespace TableAccess

/-- What becomes of work that has only so much time. -/
inductive Fate where
  | inTime
  /-- Time is up before the work has begun, and it never begins. -/
  | unstarted
  /-- Time is up while the work runs, which is done later. Nobody learns how it ended. -/
  | late
  /-- Time is up while a change runs, which is interrupted. Of a reading that is interrupted
  nothing is left, as if it were unstarted. -/
  | interrupted
  deriving DecidableEq, Repr

/-- A state with the fates of the work to come. What comes after them is done in time. -/
structure Timed (σ : Type) where
  state : σ
  fates : List Fate := []

namespace Timed

variable {σ τ ε α : Type}

def lift (a : Attempt σ ε α) : Attempt (Timed σ) ε α :=
  a.onPart (·.state) fun t state => { t with state }

def onPart (part : σ → τ) (replace : σ → τ → σ) (a : Attempt (Timed τ) ε α) :
    Attempt (Timed σ) ε α :=
  Attempt.onPart (fun t => ⟨part t.state, t.fates⟩)
    (fun t next => ⟨replace t.state next.state, next.fates⟩) a

def inTime (a : Attempt (Timed σ) ε α) : Attempt σ ε α :=
  a.onPart (fun state => { state }) fun _ t => t.state

def nextFate : Attempt (Timed σ) ε Fate := .of fun t =>
  match t.fates with
  | [] => (.ok .inTime, t)
  | fate :: rest => (.ok fate, { t with fates := rest })

/-- Waits for some work until a time limit. -/
def await (limit : Nat) (interrupt : σ → σ) (work : Attempt σ Error α) :
    Attempt (Timed σ) Error α := do
  match ← nextFate with
  | .inTime => lift work
  | .unstarted => throw (.queryTimeout limit)
  | .late => do
      let _ : Except Error α ← (lift work).observe
      throw (.queryTimeout limit)
  | .interrupted => do
      lift (Attempt.changing interrupt)
      throw (.queryTimeout limit)

end Timed

/-- A session of a suspended caller. It knows itself whether a transaction was begun on its
connection. -/
structure AsyncSession where
  connection : Nat
  snapshot : Snapshot
  /-- How long a caller waits for one piece of work. -/
  limit : Nat
  transactionOpen : Bool := false

namespace AsyncSession

variable {σ α : Type} [Machine σ]

def run (s : AsyncSession) (work : Attempt σ Error α) : Attempt (Timed σ) Error α :=
  Timed.await s.limit (Machine.interrupt s.connection) work

/-- Runs some work however long it takes. -/
def runToCompletion (_s : AsyncSession) (work : Attempt σ Error α) :
    Attempt (Timed σ) Error α :=
  Timed.lift work

/-! ## Transactions -/

def begin (s : AsyncSession) (mode : Mode) : Attempt (Timed σ) Error AsyncSession := do
  s.run (Connection.begin s.connection mode)
  pure { s with transactionOpen := true }

def commit (s : AsyncSession) : Attempt (Timed σ) Error AsyncSession := do
  s.run (Connection.commit s.connection)
  pure { s with transactionOpen := false }

/-- Undoes the transaction. If this fails the session still counts as having one open. -/
def rollbackQuietly (s : AsyncSession) : Attempt (Timed σ) Error AsyncSession := do
  match ← (s.run (Connection.rollback s.connection)).observe with
  | .ok () => pure { s with transactionOpen := false }
  | .error (_ : Error) => pure s

def leave (s : AsyncSession) :
    Except Error α → Attempt (Timed σ) Error (Except Error α × AsyncSession)
  | .ok v => do
      match ← s.commit.observe with
      | .ok committed => pure (.ok v, committed)
      | .error e => do
          let left ← s.rollbackQuietly
          pure (.error e, left)
  | .error e => do
      let left ← s.rollbackQuietly
      pure (.error e, left)

/-! ## Requests -/

def runInTransaction (s : AsyncSession) (work : Attempt σ Error α) :
    Attempt (Timed σ) Error α :=
  s.run (Connection.inTransaction s.connection .immediate work)

def select (s : AsyncSession) (q : Query) : Attempt (Timed σ) Error (List Row) := do
  let plan ← Attempt.ofExcept (q.plan s.snapshot)
  s.run (Connection.select s.connection plan)

def insert (s : AsyncSession) (table : String) (rows : NewRows) :
    Attempt (Timed σ) Error InsertReport :=
  Tracker.tracked table .insert (Insert.compile s.snapshot table rows) fun i =>
    s.runInTransaction (Connection.insertRows s.connection i)

/-- Updates the rows that satisfy a filter, and tells how many there were. -/
def update (s : AsyncSession) (table : String) (set : RowValues) (filter : Filter) :
    Attempt (Timed σ) Error Nat :=
  Tracker.tracked table .update (Update.compile s.snapshot table set filter) fun u =>
    s.runInTransaction ((Machine.update s.connection u).mapError (Error.ofFault u.table))

/-- Removes the rows that satisfy a filter, and tells how many there were. -/
def delete (s : AsyncSession) (table : String) (filter : Filter) :
    Attempt (Timed σ) Error Nat :=
  Tracker.tracked table .delete (Delete.compile s.snapshot table filter) fun d =>
    s.runInTransaction ((Machine.delete s.connection d).mapError (Error.ofFault d.table))

/-- Updates rows by their keys. All chunks are one piece of work, which always comes to its
end. -/
def bulkUpdate (s : AsyncSession) (table : String) (rows : List RowValues) (keys : List String)
    (chunkSize : Nat) : Attempt (Timed σ) Error BulkReport :=
  Tracker.tracked table .bulkUpdate (BulkUpdate.compile s.snapshot table rows keys chunkSize)
    fun request => s.runToCompletion <|
      match request with
      | some b => (b.chunks chunkSize).foldlM (fun report chunk => do
          let affected ← Connection.updateChunk s.connection b chunk
          pure ⟨report.chunks + 1, report.affected + affected⟩) ({} : BulkReport)
      | none => pure {}

def dump (s : AsyncSession) (table : String) : Attempt (Timed σ) Error (List Row) :=
  s.run (Connection.dump s.connection table)

def create (s : AsyncSession) (new : NewTable) : Attempt (Timed σ) Error Nat :=
  s.run (Connection.create s.connection new)

/-- Runs a statement that does not end, for which nobody waits longer than the time limit. -/
def spin (s : AsyncSession) : Attempt (Timed σ) Error α :=
  Timed.lift (Connection.spin s.connection s.limit)

end AsyncSession

end TableAccess
