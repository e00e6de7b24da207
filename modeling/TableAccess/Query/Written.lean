import TableAccess.Predicate.Written
import TableAccess.Query.Plan

/-!
# Written queries

The statement of a checked query. A condition that restricts nothing is left
out, and an offset without a limit is written after the limit that stands for
none.
-/

namespace TableAccess

open Sql (Fragment)

def Direction.symbol : Direction → String
  | .ascending => "ASC"
  | .descending => "DESC"

def Projection.fragments : Projection → List (Fragment Value)
  | column table field => [.column table field]
  | aggregate function table field label =>
      .verbatim (function.symbol ++ "(")
        :: [.column table field, .verbatim ") AS ", .name label]

def JoinedTable.fragments (primary : String) (j : JoinedTable) : List (Fragment Value) :=
  [.verbatim (if j.outer then " LEFT OUTER JOIN " else " INNER JOIN "), .name j.table,
    .verbatim " ON ", .column primary j.primaryColumn, .verbatim " = ",
    .column j.table j.secondaryColumn]
    ++ if j.condition.isUnrestricted then [] else .verbatim " AND " :: j.condition.fragments

namespace Select

def whereFragments (s : Select) : List (Fragment Value) :=
  if s.condition.isUnrestricted then [] else .verbatim " WHERE " :: s.condition.fragments

def groupFragments (s : Select) : List (Fragment Value) :=
  if s.groupBy.isEmpty then []
  else .verbatim " GROUP BY "
    :: Fragment.separated ", " (s.groupBy.map fun field => [.column s.table field])

def orderFragments (s : Select) : List (Fragment Value) :=
  match s.order with
  | none => []
  | some (target, direction) =>
      let written := match target with
        | .column field => [.column s.table field]
        | .aggregate name => [.name name]
      .verbatim " ORDER BY " :: (written ++ [.verbatim (" " ++ direction.symbol)])

def pageFragments (s : Select) : List (Fragment Value) :=
  (if 0 < s.limit then [.verbatim (" LIMIT " ++ toString s.limit)]
    else if 0 < s.offset then [.verbatim " LIMIT -1"] else [])
    ++ if 0 < s.offset then [.verbatim (" OFFSET " ++ toString s.offset)] else []

def shownFragments (s : Select) : List (Fragment Value) :=
  .verbatim (if s.distinct then "SELECT DISTINCT " else "SELECT ")
    :: Fragment.separated ", " (s.projections.map Projection.fragments)

def sourceFragments (s : Select) : List (Fragment Value) :=
  [.verbatim " FROM ", .name s.table]
    ++ match s.join with
      | some joined => joined.fragments s.table
      | none => []

def fragments (s : Select) : List (Fragment Value) :=
  s.shownFragments ++ s.sourceFragments ++ s.whereFragments ++ s.groupFragments
    ++ s.orderFragments ++ s.pageFragments

def statement (s : Select) : Statement := .ofFragments s.table s.fragments

end Select

def Query.build (q : Query) (snapshot : Snapshot) : Except Error Statement := do
  pure (← q.plan snapshot).statement

end TableAccess
