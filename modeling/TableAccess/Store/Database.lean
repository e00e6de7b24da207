import TableAccess.Fault
import TableAccess.Store.Definition

/-!
# Databases

The content of a store: tables with their rows, and views, each of which shows
all columns and rows of one table. Rows stand in the order in which they are
visited: by number, or by primary key where rows have no number.
-/

namespace TableAccess

structure StoredRow where
  number : Int64
  cells : List Cell
  deriving DecidableEq, Repr, Inhabited

structure StoredTable where
  definition : Definition
  rows : List StoredRow
  deriving DecidableEq, Repr, Inhabited

structure View where
  name : String
  of : String
  deriving DecidableEq, Repr

structure Database where
  tables : List StoredTable
  views : List View
  deriving DecidableEq, Repr, Inhabited

structure Source where
  table : StoredTable
  /-- Whether it is read through a view, which has columns but no row numbers. -/
  viewed : Bool
  deriving DecidableEq, Repr

def StoredRow.at (row : StoredRow) : CellPlace → Cell
  | .cell position => row.cells.getD position .null
  | .number => .integer row.number

namespace StoredTable

def name (t : StoredTable) : String := t.definition.name

/-- The cell of a row in a column; null if there is no such column. -/
def cellAt (t : StoredTable) (row : StoredRow) (column : String) : Cell :=
  ((t.definition.place? column).map row.at).getD .null

def places (t : StoredTable) (columns : List String) : List CellPlace :=
  columns.filterMap t.definition.place?

end StoredTable

namespace Source

def hasColumn (s : Source) (name : String) : Bool :=
  if s.viewed then (s.table.definition.position? name).isSome
  else s.table.definition.hasColumn name

end Source

namespace Database

def empty : Database := ⟨[], []⟩

def table? (db : Database) (name : String) : Option StoredTable :=
  db.tables.find? fun t => Text.same t.name name

def view? (db : Database) (name : String) : Option View :=
  db.views.find? fun v => Text.same v.name name

def replaceTable (db : Database) (t : StoredTable) : Database :=
  { db with tables := db.tables.map fun old => if old.name == t.name then t else old }

/-- The table that a view shows, possibly through other views. The names of views on the
way are kept, so that a view that is reached again is found to be defined by itself; the
number bounds the way. -/
def viewed (db : Database) (v : View) (passed : List String) :
    Nat → Except Fault StoredTable
  | 0 => .error (.circularView v.name)
  | steps + 1 =>
      if passed.contains v.name then .error (.circularView v.name)
      else
        match db.table? v.of with
        | some t => .ok t
        | none =>
            match db.view? v.of with
            | some next => db.viewed next (v.name :: passed) steps
            | none => .error (.noSuchTable s!"main.{v.of}")

def underView (db : Database) (v : View) : Except Fault StoredTable :=
  db.viewed v [] (db.views.length + 1)

def source (db : Database) (name : String) : Except Fault Source :=
  match db.table? name with
  | some table => .ok { table, viewed := false }
  | none =>
      match db.view? name with
      | some v => do pure { table := ← db.underView v, viewed := true }
      | none => .error (.noSuchTable name)

/-- The table that a name is changed in; views cannot be changed. -/
def target (db : Database) (name : String) : Except Fault StoredTable :=
  match db.table? name with
  | some t => .ok t
  | none =>
      match db.view? name with
      | some v => do
          let _ ← db.underView v
          throw (.viewNotModifiable v.name)
      | none => .error (.noSuchTable name)

end Database

end TableAccess
