import TableAccess.Mutation.Insert
import TableAccess.Predicate.Compile
import TableAccess.Predicate.Written

/-!
# Updates and deletions

Changes of the rows that satisfy a filter. Neither is accepted if its filter
restricts nothing. An update sets columns to values or, for numeric columns,
adds values to them.
-/

namespace TableAccess

open Sql (Fragment)

def incrementSuffix : String := "inc"

structure Assignment (α : Type) where
  column : String
  /-- Whether the operand is added to the old value instead of replacing it. -/
  increment : Bool
  operand : α
  deriving DecidableEq, Repr

namespace Assignment

variable {α : Type}

def map {β : Type} (f : α → β) (a : Assignment α) : Assignment β :=
  ⟨a.column, a.increment, f a.operand⟩

def fragments (a : Assignment α) : List (Fragment α) :=
  if a.increment then
    [.name a.column, .verbatim " = ", .name a.column, .verbatim " + ", .slot a.operand]
  else [.name a.column, .verbatim " = ", .slot a.operand]

/-- Reads a key as an assignment: a column, or a numeric column to increment. -/
def ofKey (t : Table) (key : String) (operand : α) : Except Error (Assignment α) := do
  match ← t.splitKey key with
  | (field, none) => pure ⟨field, false, operand⟩
  | (field, some suffix) =>
      if suffix = incrementSuffix then
        let c ← t.requireColumn field
        if c.type.isNumeric then pure ⟨field, true, operand⟩
        else throw (.unsupportedOperator field incrementSuffix)
      else throw (.unsupportedOperator field suffix)

def ofKeys (t : Table) : List (String × α) → Except Error (List (Assignment α))
  | [] => pure []
  | (key, operand) :: rest => do
      let a ← ofKey t key operand
      pure (a :: (← ofKeys t rest))

end Assignment

structure Update where
  table : String
  assignments : List (Assignment Value)
  condition : Predicate
  deriving Repr

structure Delete where
  table : String
  condition : Predicate
  deriving Repr

def nothingToSet (table : String) : Error :=
  .invalidRequest s!"update of '{table}' has nothing to set"

/-- Compiles a filter that has to restrict something. -/
def Table.requiredPredicate (t : Table) (filter : Filter) (operation : Operation) :
    Except Error Predicate := do
  if filter.isEmpty then throw (.missingCondition t.name operation)
  let condition ← t.compile filter
  if condition.isTrivial then throw (.missingCondition t.name operation)
  pure condition

namespace Update

def compile (snapshot : Snapshot) (table : String) (set : RowValues) (filter : Filter) :
    Except Error Update := do
  let t ← snapshot.resolve table
  if set.isEmpty then throw (nothingToSet table)
  let condition ← t.requiredPredicate filter .update
  let assignments ← Assignment.ofKeys t set.entries
  pure ⟨t.name, assignments, condition⟩

def headFragments (u : Update) : List (Fragment Value) :=
  [.verbatim "UPDATE ", .name u.table, .verbatim " SET "]
    ++ Fragment.separated ", " (u.assignments.map Assignment.fragments)
    ++ [.verbatim " WHERE "]

def fragments (u : Update) : List (Fragment Value) := u.headFragments ++ u.condition.fragments

def statement (u : Update) : Statement := .ofFragments u.table u.fragments

end Update

namespace Delete

def compile (snapshot : Snapshot) (table : String) (filter : Filter) : Except Error Delete := do
  let t ← snapshot.resolve table
  let condition ← t.requiredPredicate filter .delete
  pure ⟨t.name, condition⟩

def headFragments (d : Delete) : List (Fragment Value) :=
  [.verbatim "DELETE FROM ", .name d.table, .verbatim " WHERE "]

def fragments (d : Delete) : List (Fragment Value) := d.headFragments ++ d.condition.fragments

def statement (d : Delete) : Statement := .ofFragments d.table d.fragments

end Delete

end TableAccess
