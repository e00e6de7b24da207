import TableAccess.Predicate.Basic
import TableAccess.Sql.Statement

/-!
# Written predicates

The text of a predicate within a statement. Groups are written in parentheses,
columns with their table, and values as slots.
-/

namespace TableAccess

open Sql (Fragment)

def Condition.fragments (c : Condition) : List (Fragment Value) :=
  .column c.table c.field ::
    match c.test with
    | .isNull => [.verbatim " IS NULL"]
    | .isNotNull => [.verbatim " IS NOT NULL"]
    | .value op v => [.verbatim (" " ++ op.symbol ++ " "), .slot v]
    | .list op vs =>
        .verbatim (" " ++ op.symbol ++ " (") ::
          (Fragment.separated ", " (vs.map fun v => [.slot v]) ++ [.verbatim ")"])

namespace Predicate

mutual

def fragments : Predicate → List (Fragment Value)
  | unrestricted => [.verbatim "1 = 1"]
  | const outcome => [.verbatim (if outcome then "1 = 1" else "1 = 0")]
  | condition c => c.fragments
  | all parts =>
      .verbatim "(" :: (Fragment.separated " AND " (partFragments parts) ++ [.verbatim ")"])
  | any parts =>
      .verbatim "(" :: (Fragment.separated " OR " (partFragments parts) ++ [.verbatim ")"])

def partFragments : List Predicate → List (List (Fragment Value))
  | [] => []
  | part :: rest => part.fragments :: partFragments rest

end

def sql (p : Predicate) : String := Fragment.render p.fragments

/-- The values bound in the text of a predicate, from left to right. -/
def params (p : Predicate) : List Value := Fragment.bounds p.fragments

end Predicate

end TableAccess
