import TableAccess.Filter.Key
import TableAccess.NameMap
import TableAccess.Schema.Snapshot
import TableAccess.Sql.Statement

/-!
# Inserts

One row or many rows to be added to a table. Every row names the same columns,
and each name is a column and nothing more. A row without columns takes every
default.
-/

namespace TableAccess

abbrev RowValues := NameMap Value

inductive NewRows where
  | single (row : RowValues)
  | many (rows : List RowValues)

namespace NewRows

def toList : NewRows → List RowValues
  | single row => [row]
  | many rows => rows

def size (rows : NewRows) : Nat := rows.toList.length

def isEmpty (rows : NewRows) : Bool := rows.toList.isEmpty

/-- Whether the request is for one row, and not for a list of one. -/
def isSingle : NewRows → Bool
  | single _ => true
  | many _ => false

end NewRows

def unevenRow (table : String) (index : Nat) : Error :=
  .invalidRequest s!"row {index} for '{table}' does not have the same columns as row 0"

def noRows (table : String) : Error :=
  .invalidRequest s!"insert into '{table}' has no rows"

/-- Checks that rows have the given columns; the first row here has the index. -/
def checkColumns (table : String) (columns : List String) :
    Nat → List RowValues → Except Error Unit
  | _, [] => pure ()
  | index, row :: rest =>
      if row.keys = columns then checkColumns table columns (index + 1) rest
      else throw (unevenRow table index)

/-- Checks that every key is a column, in order. -/
def plainColumns (t : Table) : List String → Except Error (List String)
  | [] => pure []
  | key :: rest => do
      let field ← t.plainColumn key
      pure (field :: (← plainColumns t rest))

/-- A checked insert: the columns, and for each row their values. -/
structure Insert where
  table : String
  columns : List String
  rows : List (List Value)
  /-- Whether the number of the new row is reported. -/
  reportsLastId : Bool
  deriving DecidableEq, Repr

namespace Insert

open Sql (Fragment)

def compile (snapshot : Snapshot) (table : String) (rows : NewRows) : Except Error Insert := do
  let t ← snapshot.resolve table
  match rows.toList with
  | [] => throw (noRows table)
  | first :: rest =>
      let columns ← plainColumns t first.keys
      checkColumns table first.keys 1 rest
      pure
        { table := t.name
          columns
          rows := (first :: rest).map NameMap.values
          reportsLastId := rows.isSingle && t.rowidAlias?.isSome }

/-- The insert as fragments; each slot carries the column that fills it. -/
def fragments (i : Insert) : List (Fragment String) :=
  if i.columns.isEmpty then
    [.verbatim "INSERT INTO ", .name i.table, .verbatim " DEFAULT VALUES"]
  else
    [.verbatim "INSERT INTO ", .name i.table, .verbatim " ("]
      ++ Fragment.separated ", " (i.columns.map fun column => [.name column])
      ++ [.verbatim ") VALUES ("]
      ++ Fragment.separated ", " (i.columns.map fun column => [.slot column])
      ++ [.verbatim ")"]

def batch (i : Insert) : Batch := ⟨i.table, Fragment.render i.fragments, i.rows⟩

end Insert

end TableAccess
