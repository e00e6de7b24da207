import TableAccess.Mutation.Tracker
import TableAccess.Query.Plan
import TableAccess.Session.Bracket

/-!
# Sessions

A session reads and changes tables over one connection. Its requests are checked
against the snapshot that was in force when the session began. Every change runs
in a transaction, and a tracker follows it.
-/

namespace TableAccess

/-- A connection with the snapshot that its requests are checked against. -/
structure Session where
  connection : Nat
  snapshot : Snapshot

structure InsertReport where
  /-- The number of the new row, if one is reported. -/
  lastId : Option Int64
  affected : Nat
  deriving DecidableEq, Repr

structure BulkReport where
  chunks : Nat := 0
  affected : Nat := 0
  deriving DecidableEq, Repr

/-- The name that stands for the table of a statement that names none. -/
def rawTable : String := "<raw>"

namespace Tracker

variable {σ α β : Type}

/-- Follows a change from its compilation to its end, and keeps the tracker. -/
def follow (table : String) (operation : Operation) (compiled : Except Error β)
    (run : β → Attempt σ Error α) : StateM σ (Except Error α × Tracker) := fun s =>
  match (start table operation).compiled compiled with
  | (.ok request, executing) =>
      let (outcome, next) := (run request).outcome s
      (executing.finish outcome, next)
  | (.error e, ended) => ((.error e, ended), s)

def tracked (table : String) (operation : Operation) (compiled : Except Error β)
    (run : β → Attempt σ Error α) : Attempt σ Error α := .of fun s =>
  let ((outcome, _), next) := follow table operation compiled run s
  (outcome, next)

end Tracker

namespace BulkReport

variable {σ : Type}

def adding (r : BulkReport) (affected : Nat) : BulkReport :=
  ⟨r.chunks + 1, r.affected + affected⟩

/-- Runs chunks one after the other, up to the first that fails. -/
def overChunks (run : List RowValues → Attempt σ Error Nat) (report : BulkReport) :
    List (List RowValues) → Attempt σ Error BulkReport
  | [] => pure report
  | chunk :: rest => do
      let affected ← run chunk
      overChunks run (report.adding affected) rest

end BulkReport

namespace Connection

variable {σ α : Type} [Machine σ]

def select (c : Nat) (q : Select) : Attempt σ Error (List Row) :=
  (Machine.select c q).mapError (Error.ofFault q.table)

/-- Runs an insert without a transaction of its own. -/
def insertRows (c : Nat) (i : Insert) : Attempt σ Error InsertReport := do
  let affected ← (Machine.insert c i).mapError (Error.ofFault i.table)
  let number ← Attempt.reading fun s => Machine.lastNumber s c
  pure ⟨if i.reportsLastId then some number else none, affected⟩

def insert (c : Nat) (i : Insert) : Attempt σ Error InsertReport :=
  inTransaction c .immediate (insertRows c i)

def update (c : Nat) (u : Update) : Attempt σ Error Nat :=
  inTransaction c .immediate ((Machine.update c u).mapError (Error.ofFault u.table))

def delete (c : Nat) (d : Delete) : Attempt σ Error Nat :=
  inTransaction c .immediate ((Machine.delete c d).mapError (Error.ofFault d.table))

def updateChunk (c : Nat) (b : BulkUpdate) (rows : List RowValues) : Attempt σ Error Nat :=
  inTransaction c .immediate ((Machine.updateBatch c b rows).mapError (Error.ofFault b.table))

/-- All columns and rows of a table or a view, whether or not a catalog knows it. -/
def dump (c : Nat) (table : String) : Attempt σ Error (List Row) :=
  (Machine.dump c table).mapError (Error.ofFault rawTable)

/-- Creates a table or a view, and tells how many rows the connection changed last. -/
def create (c : Nat) (new : NewTable) : Attempt σ Error Nat :=
  (Machine.create c new).mapError (Error.ofFault rawTable)

def discover (c : Nat) : Attempt σ Error Snapshot :=
  (Machine.discover c "pragma_table_list").mapError fun (name, fault) => Error.ofFault name fault

def ping (c : Nat) : Attempt σ Error Unit :=
  (Machine.ping c).mapError fun fault =>
    .connectionFailure s!"health check failed: {fault.message}"

/-- A statement that counts without end. -/
def endless : String :=
  "WITH RECURSIVE c(x) AS (SELECT 1 UNION ALL SELECT x + 1 FROM c) SELECT count(*) FROM c"

/-- Runs a statement that does not end within a time limit. -/
def spin (c : Nat) (limit : Nat) : Attempt σ Error α := do
  (Machine.spin c endless).mapError (Error.ofFault rawTable)
  throw (.queryTimeout limit)

def configure (c : Nat) : Attempt σ Error Unit :=
  (Machine.configure c).mapError fun fault =>
    .connectionFailure s!"Failed to configure connection: {fault.message}"

end Connection

namespace Session

variable {σ : Type} [Machine σ]

def select (s : Session) (q : Query) : Attempt σ Error (List Row) := do
  let plan ← Attempt.ofExcept (q.plan s.snapshot)
  Connection.select s.connection plan

def insert (s : Session) (table : String) (rows : NewRows) : Attempt σ Error InsertReport :=
  Tracker.tracked table .insert (Insert.compile s.snapshot table rows)
    (Connection.insert s.connection)

/-- Updates the rows that satisfy a filter, and tells how many there were. -/
def update (s : Session) (table : String) (set : RowValues) (filter : Filter) :
    Attempt σ Error Nat :=
  Tracker.tracked table .update (Update.compile s.snapshot table set filter)
    (Connection.update s.connection)

/-- Removes the rows that satisfy a filter, and tells how many there were. -/
def delete (s : Session) (table : String) (filter : Filter) : Attempt σ Error Nat :=
  Tracker.tracked table .delete (Delete.compile s.snapshot table filter)
    (Connection.delete s.connection)

def bulkUpdate (s : Session) (table : String) (rows : List RowValues) (keys : List String)
    (chunkSize : Nat) : Attempt σ Error BulkReport :=
  Tracker.tracked table .bulkUpdate (BulkUpdate.compile s.snapshot table rows keys chunkSize)
    fun request =>
      match request with
      | some b =>
          BulkReport.overChunks (Connection.updateChunk s.connection b) {} (b.chunks chunkSize)
      | none => pure {}

end Session

end TableAccess
