import TableAccess.Attempt
import TableAccess.Store.Change
import TableAccess.Store.Mode

/-!
# Transactions

A store is a location in memory with a shared cache: its connections share one content, and they
lock tables rather than pages. A transaction that has changed something is the only writer until it
ends, and ending it keeps its changes or brings back the content from before. A table that one
transaction has changed cannot be read by others, and a table that others have read cannot be
changed. The set of tables is such a table too: every transaction reads it as soon as it touches the
store, and while one has changed it, no statement of another can be matched.

At another location, such as a file or memory of each connection's own, locks are taken in other
ways. A handle on one of those has another machine behind it, and nothing that is shown of stores
alone is meant for it.
-/

namespace TableAccess

def schemaTable : String := "sqlite_master"

/-- An open transaction, with the tables that it has used. -/
structure Transaction where
  connection : Nat
  /-- Whether the transaction has touched the store yet. -/
  active : Bool := false
  read : List String := []
  changed : List String := []
  /-- How many rows owe a deferred reference. -/
  owed : Int := 0
  deriving DecidableEq, Repr

structure Writer where
  connection : Nat
  /-- The content that a rollback brings back. -/
  before : Database
  /-- Whether a table was refused because others had read it. Until those have
  ended, no further transaction may start. -/
  refused : Bool := false
  deriving DecidableEq, Repr

/-- A statement that a connection keeps, so that it need not be matched again. -/
structure KeptStatement where
  sql : String
  /-- The names of the columns that it shows. -/
  columns : List String
  /-- Whether it has to be matched again nevertheless. -/
  expired : Bool := false
  deriving DecidableEq, Repr

structure Memory where
  /-- The row number that was inserted last. -/
  number : Int64 := 0
  /-- How many rows the last statement changed that changes rows; none if it failed while it ran. -/
  count : Nat := 0
  /-- The statements that are kept, the one used last first. -/
  kept : List KeptStatement := []
  deriving DecidableEq, Repr

/-- A store in memory that connections share with its cache. -/
structure Store where
  database : Database := .empty
  transactions : List Transaction := []
  writer : Option Writer := none
  /-- What connections remember. -/
  memories : List (Nat × Memory) := []
  /-- How many statements were run so far. -/
  statements : Nat := 0
  deriving DecidableEq, Repr, Inhabited

namespace Memory

def capacity : Nat := 16

def kept? (m : Memory) (sql : String) : Option KeptStatement :=
  m.kept.find? fun k => k.sql == sql

def keep (m : Memory) (k : KeptStatement) : Memory :=
  let others := m.kept.filter fun other => other.sql != k.sql
  { m with kept := (k :: others).take capacity }

/-- Lets the kept statement of a text be matched again. -/
def spoil (m : Memory) (sql : String) : Memory :=
  match m.kept? sql with
  | some k => m.keep { k with expired := true }
  | none => m

/-- Lets every kept statement be matched again. -/
def expire (m : Memory) : Memory :=
  { m with kept := m.kept.map fun k => { k with expired := true } }

end Memory

namespace Store

def transaction? (s : Store) (c : Nat) : Option Transaction :=
  s.transactions.find? fun t => t.connection == c

def isOpen (s : Store) (c : Nat) : Bool := (s.transaction? c).isSome

def isActive (s : Store) (c : Nat) : Bool := ((s.transaction? c).map (·.active)).getD false

def writtenElsewhere (s : Store) (c : Nat) : Bool :=
  (s.writer.map fun w => w.connection != c).getD false

def changedElsewhere (s : Store) (c : Nat) (table : String) : Bool :=
  s.transactions.any fun t => t.connection != c && t.changed.contains table

def readElsewhere (s : Store) (c : Nat) (table : String) : Bool :=
  s.transactions.any fun t => t.connection != c && t.read.contains table

def schemaLocked (s : Store) (c : Nat) : Bool := s.changedElsewhere c schemaTable

/-- Whether a connection may not touch the store yet, because a refused writer has to come
first or because the set of tables is being changed. -/
def bars (s : Store) (c : Nat) : Bool :=
  !s.isActive c
    && ((s.writer.map fun w => w.refused && w.connection != c).getD false || s.schemaLocked c)

def updateTransaction (s : Store) (c : Nat) (update : Transaction → Transaction) : Store :=
  { s with transactions := s.transactions.map fun t => if t.connection == c then update t else t }

def memory (s : Store) (c : Nat) : Memory :=
  ((s.memories.find? fun entry => entry.1 == c).map (·.2)).getD {}

def remember (s : Store) (c : Nat) (update : Memory → Memory) : Store :=
  { s with
    memories := (c, update (s.memory c)) :: s.memories.filter fun entry => entry.1 != c }

def counted (s : Store) : Store := { s with statements := s.statements + 1 }

/-- The check that comes before a statement is matched: the set of tables must be at rest. -/
def requireSchema (c : Nat) : Attempt Store Fault Unit := .of fun s =>
  if s.schemaLocked c then (.error .schemaLocked, s) else (.ok (), s)

/-- Counts a new statement and makes sure that it can be matched. -/
def announce (c : Nat) : Attempt Store Fault Unit := do
  Attempt.changing counted
  requireSchema c

def activate (s : Store) (c : Nat) : Store :=
  s.updateTransaction c fun t =>
    if t.active then t else { t with active := true, read := schemaTable :: t.read }

def enterReading (c : Nat) : Attempt Store Fault Unit := .of fun s =>
  if s.bars c then (.error (.locked none), s) else (.ok (), s.activate c)

/-- Makes a connection the writer; the transaction of a writer is active. -/
def makeWriter (s : Store) (c : Nat) : Store :=
  let entered := s.activate c
  match entered.writer with
  | some _ => entered
  | none => { entered with writer := some { connection := c, before := entered.database } }

/-- Touches the store for changing it. Outside a transaction this lasts only as long as
the statement. -/
def enterWriting (c : Nat) : Attempt Store Fault Unit := .of fun s =>
  if s.writtenElsewhere c then (.error (.locked none), s)
  else if s.isOpen c then (.ok (), s.makeWriter c)
  else (.ok (), s)

def activeCount (s : Store) : Nat := (s.transactions.filter (·.active)).length

/-- The writer once the transaction of a connection has ended. When nobody but the
writer is left, it is no longer waited for. -/
def writerWithout (s : Store) (c : Nat) : Option Writer :=
  match s.writer with
  | none => none
  | some w =>
      if w.connection = c then none
      else if s.isActive c && s.activeCount = 2 then some { w with refused := false }
      else some w

/-- Ends the transaction of a connection and gives its tables free. -/
def release (s : Store) (c : Nat) : Store :=
  { s with
    transactions := s.transactions.filter fun t => t.connection != c
    writer := s.writerWithout c }

def openTransaction (c : Nat) : Attempt Store Fault Unit :=
  .changing fun s => { s with transactions := s.transactions ++ [{ connection := c }] }

/-- Begins a transaction. An immediate one becomes the writer at once, even if it turns out
that a transaction is open already. -/
def begin (c : Nat) (mode : Mode) : Attempt Store Fault Unit := do
  announce c
  if mode = .immediate then enterWriting c
  if ← Attempt.reading fun s => s.isOpen c then throw .transactionWithinTransaction
  openTransaction c
  if mode = .immediate then enterWriting c

/-- How many rows owe a deferred reference in the transaction of a connection. -/
def owed (s : Store) (c : Nat) : Int := ((s.transaction? c).map (·.owed)).getD 0

/-- Ends a transaction and keeps its changes. If a deferred reference is owed, the
transaction stays open. -/
def commit (c : Nat) : Attempt Store Fault Unit := do
  announce c
  unless ← Attempt.reading fun s => s.isOpen c do throw .noTransactionToCommit
  if 0 < (← Attempt.reading fun s => s.owed c) then throw .foreignKey
  Attempt.changing fun s => s.release c

def contentBefore (s : Store) (c : Nat) : Database :=
  match s.writer with
  | some w => if w.connection = c then w.before else s.database
  | none => s.database

def changedSchema (s : Store) (c : Nat) : Bool :=
  ((s.transaction? c).map fun t => t.changed.contains schemaTable).getD false

/-- Ends a transaction and undoes its changes. Once tables have gone again, no kept
statement can be relied on. -/
def undo (s : Store) (c : Nat) : Store :=
  let undone := { s.release c with database := s.contentBefore c }
  if s.changedSchema c then undone.remember c Memory.expire else undone

/-- Undoes an open transaction; without one nothing is run. -/
def rollback (c : Nat) : Attempt Store Fault Unit := do
  if ← Attempt.reading fun s => s.isOpen c then
    announce c
    Attempt.changing fun s => s.undo c

end Store

end TableAccess
