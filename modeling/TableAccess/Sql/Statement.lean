import TableAccess.Sql.Fragment
import TableAccess.Value.Basic

/-!
# Statements

The text of a statement with the values bound to its question marks, and batches
of statements that share one text.
-/

namespace TableAccess

structure Statement where
  /-- The table that the statement is about. -/
  table : String
  sql : String
  params : List Value
  deriving DecidableEq, Repr

def Statement.ofFragments (table : String) (fragments : List (Sql.Fragment Value)) : Statement :=
  ⟨table, Sql.Fragment.render fragments, Sql.Fragment.bounds fragments⟩

/-- One text, run once for each set of values. -/
structure Batch where
  table : String
  sql : String
  paramSets : List (List Value)
  deriving DecidableEq, Repr

namespace Batch

def size (b : Batch) : Nat := b.paramSets.length

def isEmpty (b : Batch) : Bool := b.paramSets.isEmpty

end Batch

end TableAccess
