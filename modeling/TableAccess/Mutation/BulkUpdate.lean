import TableAccess.Mutation.Update

/-!
# Bulk updates

Many rows, each of which addresses stored rows by the values of key columns and
sets its other columns. The rows share one statement and are run in chunks. The
whole request is checked before the first chunk exists.
-/

namespace TableAccess

open Sql (Fragment)

/-- A checked bulk update: slots are filled by the entries of a row. -/
structure BulkUpdate where
  table : String
  /-- What is set, each operand being the key of a row's entry. -/
  assignments : List (Assignment String)
  /-- The key columns, in the order in which they were given. -/
  keys : List String
  rows : List RowValues
  deriving DecidableEq

def emptyChunks : Error := .invalidRequest "chunk size must be greater than zero"

def missingKeyColumn (table key : String) : Error :=
  .invalidRequest s!"bulk update rows for '{table}' must contain key column '{key}'"

def onlyKeyColumns (table : String) : Error :=
  .invalidRequest s!"bulk update of '{table}' has nothing to set besides the key columns"

def nullKey (index : Nat) (key : String) : Error :=
  .invalidRequest s!"bulk update row {index} has a null key column '{key}'"

/-- A list cut into pieces of a given length, the last one perhaps shorter. The
first argument bounds the number of pieces. -/
def piecesOf {α : Type} (size : Nat) : Nat → List α → List (List α)
  | 0, _ => []
  | _, [] => []
  | fuel + 1, items => items.take size :: piecesOf size fuel (items.drop size)

/-- A list cut into pieces of a positive length. -/
def pieces {α : Type} (size : Nat) (items : List α) : List (List α) :=
  piecesOf size items.length items

namespace BulkUpdate

def requireKeys (t : Table) : List String → Except Error Unit
  | [] => pure ()
  | key :: rest => do
      let _ ← t.requireColumn key
      requireKeys t rest

def containsKeys (table : String) (row : RowValues) : List String → Except Error Unit
  | [] => pure ()
  | key :: rest =>
      if row.contains key then containsKeys table row rest
      else throw (missingKeyColumn table key)

def keysNotNull (index : Nat) (row : RowValues) : List String → Except Error Unit
  | [] => pure ()
  | key :: rest =>
      if (row.get? key).getD .null = .null then throw (nullKey index key)
      else keysNotNull index row rest

/-- Checks the keys of rows, the first of which has the index. -/
def allKeysNotNull (keys : List String) : Nat → List RowValues → Except Error Unit
  | _, [] => pure ()
  | index, row :: rest => do
      keysNotNull index row keys
      allKeysNotNull keys (index + 1) rest

/-- Checks a bulk update; without rows there is nothing to run. -/
def compile (snapshot : Snapshot) (table : String) (rows : List RowValues) (keys : List String)
    (chunkSize : Nat) : Except Error (Option BulkUpdate) := do
  let t ← snapshot.resolve table
  if keys.isEmpty then throw (.missingCondition table .bulkUpdate)
  if chunkSize = 0 then throw emptyChunks
  requireKeys t keys
  match rows with
  | [] => pure none
  | first :: rest =>
      containsKeys table first keys
      checkColumns table first.keys 1 rest
      let setKeys := first.keys.filter fun key => !keys.contains key
      if setKeys.isEmpty then throw (onlyKeyColumns table)
      let assignments ← Assignment.ofKeys t (setKeys.map fun key => (key, key))
      allKeysNotNull keys 0 (first :: rest)
      pure (some ⟨t.name, assignments, keys, first :: rest⟩)

/-- A bulk update as fragments; each slot carries the key that fills it. -/
def fragments (b : BulkUpdate) : List (Fragment String) :=
  [.verbatim "UPDATE ", .name b.table, .verbatim " SET "]
    ++ Fragment.separated ", " (b.assignments.map Assignment.fragments)
    ++ .verbatim " WHERE "
      :: Fragment.separated " AND " (b.keys.map fun key => [.name key, .verbatim " = ", .slot key])

def sql (b : BulkUpdate) : String := Fragment.render b.fragments

def valueAt (row : RowValues) (key : String) : Value := (row.get? key).getD .null

/-- The condition by which a row addresses stored rows. -/
def condition (b : BulkUpdate) (row : RowValues) : Predicate :=
  .conj (b.keys.map fun key => .condition ⟨b.table, key, .eq, .value (valueAt row key)⟩)

def paramsOf (b : BulkUpdate) (row : RowValues) : List Value :=
  (Fragment.bounds b.fragments).map (valueAt row)

def batchOf (b : BulkUpdate) (rows : List RowValues) : Batch :=
  ⟨b.table, b.sql, rows.map b.paramsOf⟩

def chunks (b : BulkUpdate) (chunkSize : Nat) : List (List RowValues) := pieces chunkSize b.rows

def batches (b : BulkUpdate) (chunkSize : Nat) : List Batch :=
  (b.chunks chunkSize).map b.batchOf

end BulkUpdate

end TableAccess
