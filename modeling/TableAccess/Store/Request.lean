import TableAccess.Store.Change
import TableAccess.Store.Creation
import TableAccess.Store.Read
import TableAccess.Store.Route.Writing

/-!
# Requests on a database

What checked requests do to the content of a store. A statement is first read and
matched against the stored tables, which may differ from those of the catalog that the
request was checked with.
-/

namespace TableAccess

namespace Database

def requireMentioned (t : StoredTable) (sql : String) (mentions : List Mention) :
    Except Fault Unit :=
  mentions.forM fun m =>
    if t.definition.hasColumn m.field then .ok ()
    else .error (m.locate sql (.noSuchColumn s!"{m.table}.{m.field}"))

def requireAssigned {α : Type} (t : StoredTable) (assignments : List (Assignment α)) :
    Except Fault Unit :=
  assignments.forM fun a =>
    if t.definition.hasColumn a.column then .ok () else .error (.noSuchColumn a.column)

def prepareInsert (db : Database) (i : Insert) : Except Fault Unit := do
  Sql.requireWhole i.batch.sql
  let t ← db.target i.table
  i.columns.forM fun column =>
    if t.definition.hasColumn column then .ok () else .error (.noColumnNamed i.table column)
  (Concern.ofInsert db t).check db t

def prepareUpdate (db : Database) (u : Update) : Except Fault Unit := do
  let sql := u.statement.sql
  Sql.requireWhole sql
  Sql.requireShallow u.condition.depth
  let t ← db.target u.table
  requireAssigned t u.assignments
  requireMentioned t sql u.mentions
  (Concern.ofUpdate db t (u.assignments.map (·.column))).checkAll db t

def prepareDelete (db : Database) (d : Delete) : Except Fault Unit := do
  let sql := d.statement.sql
  Sql.requireWhole sql
  Sql.requireShallow d.condition.depth
  let t ← db.target d.table
  requireMentioned t sql d.mentions
  (Concern.ofDelete db t).checkAll db t

def prepareBulk (db : Database) (b : BulkUpdate) : Except Fault Unit := do
  Sql.requireWhole b.sql
  Sql.requireShallow b.depth
  let t ← db.target b.table
  requireAssigned t b.assignments
  (Concern.ofUpdate db t (b.assignments.map (·.column))).checkAll db t

/-- The truth of the equality of a key column with a value. A key that is no stored
column stands for its own text. -/
def keyTruth (t : StoredTable) (row : StoredRow) (key : String) (v : Value) : Truth :=
  if t.definition.hasColumn key then
    Operator.eq.truth (t.definition.typeOf key) (t.cellAt row key) (.ofValue v)
  else Operator.eq.truth .blob (.text key) (.ofValue v)

end Database

namespace Change

/-- Inserts the values of one row, and tells its number. -/
def insert (i : Insert) (row : List Value) : Change Int64 :=
  insertRow i.table (i.columns.zip (row.map Cell.ofValue))

/-- Updates the rows that satisfy the condition, and tells how many there were. -/
def update (u : Update) : Change Nat :=
  updateWhere u.table (u.assignments.map fun a => a.map Cell.ofValue) fun db t =>
    t.inUpdateOrder db u.condition u.assignments (t.rows.filter (t.satisfies u.condition))

/-- Removes the rows that satisfy the condition, and tells how many there were. -/
def delete (d : Delete) : Change Nat :=
  deleteWhere d.table fun t row => t.satisfies d.condition row

/-- Updates the rows that a row of a bulk update addresses by its keys, and tells how
many there were. -/
def updateKeyed (b : BulkUpdate) (given : RowValues) : Change Nat :=
  let operand (key : String) : Cell := .ofValue (BulkUpdate.valueAt given key)
  updateWhere b.table (b.assignments.map fun a => a.map operand) fun db t =>
    t.inUpdateOrder db (b.condition given) b.assignments (t.rows.filter fun row =>
      (Truth.all (b.keys.map fun key =>
        Database.keyTruth t row key (BulkUpdate.valueAt given key))).holds)

def create (new : NewTable) : Change Unit := .of fun content =>
  match content.database.create new with
  | .ok database => (.ok (), { content with database })
  | .error fault => (.error fault, content)

end Change

namespace Sources

def names (s : Sources) : List String :=
  s.primary.table.name :: (s.secondary.map fun source => source.table.name).toList

end Sources

end TableAccess
