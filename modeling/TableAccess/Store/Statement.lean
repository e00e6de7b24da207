import TableAccess.Store.Discovery
import TableAccess.Store.Machine
import TableAccess.Store.Request
import TableAccess.Store.Transaction

/-!
# Statements on a shared store

A statement is matched against the content, takes the tables that it needs, and
runs. Inside an open transaction it keeps its tables until the end; alone it is
a transaction of its own, which a fault undoes. A connection keeps the statements that
it has matched: one that is run again touches the store before it is matched again, and
its faults no longer tell where they stand.
-/

namespace TableAccess

structure Form (β : Type) where
  sql : String
  /-- Matches the statement against the content. -/
  plan : Database → Except Fault β
  /-- The names of the columns that are shown. -/
  columns : β → List String := fun _ => []
  /-- Whether a kept statement expires when new values are bound to it. -/
  rebinds : Bool := false

/-- Whether a pattern stands among the conditions that all have to hold. A statement is
planned for the pattern that is bound to it. -/
def Predicate.bindsPattern : Predicate → Bool
  | condition c => c.operator = .like
  | all parts => partsBindPattern parts
  | any parts => partsHoldConjunction parts
  | _ => false
where
  /-- Whether one of several conditions binds a pattern. -/
  partsBindPattern : List Predicate → Bool
    | [] => false
    | part :: rest => part.bindsPattern || partsBindPattern rest
  /-- Whether one of several alternatives is a conjunction that binds a pattern. -/
  partsHoldConjunction : List Predicate → Bool
    | [] => false
    | .condition _ :: rest => partsHoldConjunction rest
    | part :: rest => part.bindsPattern || partsHoldConjunction rest

namespace Store

variable {α β : Type}

def kept? (s : Store) (c : Nat) (form : Form β) : Option KeptStatement :=
  (s.memory c).kept? form.sql

def isExpired (s : Store) (c : Nat) (form : Form β) : Bool :=
  ((s.kept? c form).map (·.expired)).getD false

/-- Takes up a statement: the kept one of its text, or else one that is matched now. Tells
the names of the columns that it is to show. -/
def takeUp (c : Nat) (form : Form β) : Attempt Store Fault (List String) := do
  match ← Attempt.reading fun s => s.kept? c form with
  | some k => do
      let taken := { k with expired := k.expired || form.rebinds }
      Attempt.changing fun s => (s.remember c (·.keep taken)).counted
      pure k.columns
  | none => do
      announce c
      let plan ← .of fun s => (form.plan s.database, s)
      let columns := form.columns plan
      Attempt.changing fun s => s.remember c (·.keep { sql := form.sql, columns })
      pure columns

/-- Matches a statement that was taken up against the content as it is now. One that no
longer fits stays expired. -/
def rematch (c : Nat) (form : Form β) : Attempt Store Fault β := .of fun s =>
  match form.plan s.database with
  | .ok plan =>
      (.ok plan, s.remember c (·.keep { sql := form.sql, columns := form.columns plan }))
  | .error fault => (.error fault.bare, s.remember c (·.spoil form.sql))

def renew (c : Nat) (form : Form β) : Attempt Store Fault Unit := do
  if ← Attempt.reading fun s => s.isExpired c form then
    requireSchema c
    let _ ← rematch c form

/-- Takes tables that no other transaction has changed, one after the other. -/
def takeForReading (c : Nat) : List String → Attempt Store Fault Unit
  | [] => pure ()
  | table :: rest => do
      if ← Attempt.reading fun s => s.changedElsewhere c table then
        throw (.locked (some table))
      Attempt.changing fun s => s.updateTransaction c fun t => { t with read := table :: t.read }
      takeForReading c rest

def read (c : Nat) (form : Form β) (tables : β → List String)
    (answer : Database → Except Fault α) : Attempt Store Fault α := do
  renew c form
  enterReading c
  let plan ← rematch c form
  takeForReading c (tables plan)
  .of fun s => (answer s.database, s)

def refuseWriter (s : Store) (c : Nat) : Store :=
  { s with
    writer := s.writer.map fun w => if w.connection = c then { w with refused := true } else w }

def takeForWriting (c : Nat) (table : String) : Attempt Store Fault Unit := do
  if ← Attempt.reading fun s => s.readElsewhere c table then
    Attempt.changing fun s => s.refuseWriter c
    throw (.locked (some table))
  Attempt.changing fun s => s.updateTransaction c fun t => { t with changed := table :: t.changed }

def changeWithin (c : Nat) (change : Change α) : Attempt Store Fault α :=
  change.onPart (fun s => { database := s.database, owed := s.owed c }) fun s content =>
    { s with database := content.database }.updateTransaction c fun t =>
      { t with owed := content.owed }

/-- Changes the content in a transaction of its own, at whose end nothing may be owed. -/
def changeAlone (change : Change α) : Attempt Store Fault α := .of fun s =>
  match change.outcome { database := s.database } with
  | (.ok a, content) =>
      if 0 < content.owed then (.error .foreignKey, s)
      else (.ok a, { s with database := content.database })
  | (.error fault, _) => (.error fault, s)

/-- Changes a table. Only one connection can be the writer. -/
def write (c : Nat) (form : Form β) (table : β → String) (change : Change α) :
    Attempt Store Fault α := do
  enterWriting c
  let plan ← rematch c form
  takeForWriting c (table plan)
  if ← Attempt.reading fun s => s.isOpen c then changeWithin c change else changeAlone change

/-- Runs a statement that changes rows. The connection remembers how many there were, unless the
statement no longer fits the content. -/
def writeRows (c : Nat) (form : Form String) (count : α → Nat) (change : Change α) :
    Attempt Store Fault α := do
  renew c form
  let outcome : Except Fault α ← (write c form id change).observe
  let changed := match outcome with
    | .ok a => count a
    | .error _ => 0
  Attempt.changing fun s =>
    if s.isExpired c form then s else s.remember c fun m => { m with count := changed }
  Attempt.ofExcept outcome

/-- Rows as a statement shows them that was to have certain columns. -/
def shown (columns : List String) (rows : List Row) : Except Fault (List Row) :=
  rows.mapM fun row =>
    if row.values.length < columns.length then .error (.invalidColumnIndex row.values.length)
    else .ok ⟨columns, row.values.take columns.length⟩

def query (c : Nat) (form : Form β) (tables : β → List String)
    (answer : Database → Except Fault (List Row)) : Attempt Store Fault (List Row) := do
  let columns ← takeUp c form
  let rows ← read c form tables answer
  Attempt.ofExcept (shown columns rows)

def select (c : Nat) (q : Select) : Attempt Store Fault (List Row) :=
  query c
    { sql := q.statement.sql
      plan := fun db => db.prepareSelect q
      columns := q.columnNames
      rebinds := q.condition.bindsPattern
        || (q.join.map fun j => j.condition.bindsPattern).getD false }
    Sources.names fun db => db.select q

def dump (c : Nat) (table : String) : Attempt Store Fault (List Row) :=
  let sql := "SELECT * FROM " ++ Sql.quotedName table
  query c
    { sql
      plan := fun db => do
        Sql.requireWhole sql
        db.source table
      columns := fun source => source.table.definition.columns.map (·.name) }
    (fun source => [source.table.name])
    fun db => do pure (Database.dump (← db.source table).table)

def targetName (db : Database) (table : String) : Except Fault String := do
  pure (← db.target table).name

def insertForm (i : Insert) : Form String where
  sql := i.batch.sql
  plan := fun db => do
    db.prepareInsert i
    targetName db i.table

/-- Adds one row. The connection remembers its number, if the table numbers rows. -/
def insertRow (c : Nat) (i : Insert) (row : List Value) : Attempt Store Fault Unit := do
  let number ← writeRows c (insertForm i) (fun _ => 1) (Change.insert i row)
  .changing fun s =>
    match s.database.table? i.table with
    | some t =>
        if t.definition.withoutRowid then s else s.remember c fun m => { m with number }
    | none => s

/-- Takes an insert up, whose rows are then added one by one. -/
def takeInsert (c : Nat) (i : Insert) : Attempt Store Fault Unit := do
  let _ ← takeUp c (insertForm i)
  pure ()

/-- Runs an update, and tells how many rows it changed. -/
def update (c : Nat) (u : Update) : Attempt Store Fault Nat := do
  let form : Form String :=
    { sql := u.statement.sql
      plan := fun db => do
        db.prepareUpdate u
        targetName db u.table
      rebinds := u.condition.bindsPattern }
  let _ ← takeUp c form
  writeRows c form id (Change.update u)

/-- Runs a deletion, and tells how many rows it removed. -/
def delete (c : Nat) (d : Delete) : Attempt Store Fault Nat := do
  let form : Form String :=
    { sql := d.statement.sql
      plan := fun db => do
        db.prepareDelete d
        targetName db d.table
      rebinds := d.condition.bindsPattern }
  let _ ← takeUp c form
  writeRows c form id (Change.delete d)

def bulkForm (b : BulkUpdate) : Form String where
  sql := b.sql
  plan := fun db => do
    db.prepareBulk b
    targetName db b.table

/-- Takes a bulk update up, whose rows are then run one by one. -/
def takeBulk (c : Nat) (b : BulkUpdate) : Attempt Store Fault Unit := do
  let _ ← takeUp c (bulkForm b)
  pure ()

/-- Updates by one row of a bulk update, and tells how many stored rows were changed. -/
def updateRow (c : Nat) (b : BulkUpdate) (row : RowValues) : Attempt Store Fault Nat :=
  writeRows c (bulkForm b) id (Change.updateKeyed b row)

/-- Creates a table or a view. Since this changes no rows, the count that is reported
is the one that the connection remembers. -/
def create (c : Nat) (new : NewTable) : Attempt Store Fault Nat := do
  let form : Form Unit :=
    { sql := new.text
      plan := fun db => (db.create new).map fun _ => () }
  let _ ← takeUp c form
  renew c form
  write c form (fun _ => schemaTable) (Change.create new)
  .reading fun s => (s.memory c).count

/-- The descriptions of all tables and views. A fault is told with the name that it is
about: that of a view, or one that stands for the whole. -/
def discover (c : Nat) (whole : String) : Attempt Store (String × Fault) Snapshot := do
  let ready : Attempt Store Fault Unit := do
    announce c
    enterReading c
  ready.mapError fun fault => (whole, fault)
  .of fun s => ((s.database.discover).map .ofList, s)

def ping (c : Nat) : Attempt Store Fault Unit := announce c

/-- Runs a kept statement that reads nothing and does not end. -/
def spin (c : Nat) (sql : String) : Attempt Store Fault Unit := do
  let form : Form Unit := { sql, plan := fun _ => .ok () }
  let _ ← takeUp c form
  renew c form

/-- Sets a connection up, which makes it match its statements again. -/
def configure (c : Nat) : Attempt Store Fault Unit := do
  requireSchema c
  Attempt.changing fun s => s.remember c Memory.expire

instance : Machine Store where
  isOpen := isOpen
  answers s c := !s.schemaLocked c
  configure := configure
  begin := begin
  commit := commit
  rollback := rollback
  interrupt c s := s.undo c
  close c s := s.undo c
  lastNumber s c := (s.memory c).number
  select := select
  takeInsert := takeInsert
  insertRow := insertRow
  update := update
  delete := delete
  takeBulk := takeBulk
  updateRow := updateRow
  dump := dump
  create := create
  discover := discover
  ping := ping
  spin := spin

end Store

end TableAccess
