import TableAccess.Query.Select
import TableAccess.Store.Change

/-!
# Pairings

The rows that a query works on: rows of the queried table that satisfy its filter,
each with its partners in the joined table. The condition of a join decides which
rows are partners; it never removes a row of the queried table from an outer join.
-/

namespace TableAccess

structure Sources where
  primary : Source
  secondary : Option Source

/-- A row of the queried table, with its partner if there is one. -/
structure Pairing where
  primary : StoredRow
  secondary : Option StoredRow
  deriving DecidableEq, Repr

namespace Sources

/-- The cell of a pairing in a column of one of the tables; without a partner the
columns of the second table are null. -/
def cellAt (s : Sources) (select : Select) (p : Pairing) (table column : String) : Cell :=
  if Text.same table select.table then s.primary.table.cellAt p.primary column
  else
    match s.secondary, p.secondary with
    | some source, some row => source.table.cellAt row column
    | _, _ => .null

def shownName (s : Sources) (select : Select) (table column : String) : String :=
  if Text.same table select.table then s.primary.table.definition.shownName column
  else
    match s.secondary with
    | some source => source.table.definition.shownName column
    | none => column

end Sources

namespace JoinedTable

/-- Whether two rows are partners: their join columns are equal and the row of the
second table satisfies the condition of the join. -/
def joins (j : JoinedTable) (primary secondary : StoredTable) (first second : StoredRow) :
    Bool :=
  let left := primary.cellAt first j.primaryColumn
  let right := secondary.cellAt second j.secondaryColumn
  let (a, b) := ColumnType.comparablePair (primary.definition.typeOf j.primaryColumn)
    (secondary.definition.typeOf j.secondaryColumn) left right
  !left.isNull && !right.isNull && a.same b && secondary.satisfies j.condition second

/-- A row of the queried table with each of its partners; in an outer join a row
without partners stays alone. -/
def pairings (j : JoinedTable) (primary secondary : StoredTable) (row : StoredRow) :
    List Pairing :=
  let partners := secondary.rows.filter (j.joins primary secondary row)
  if partners.isEmpty && j.outer then [⟨row, none⟩]
  else partners.map fun partner => ⟨row, some partner⟩

end JoinedTable

namespace Select

/-- The pairings that a query takes its rows from, in the order of the rows of the
queried table. -/
def pairings (select : Select) (s : Sources) : List Pairing :=
  let primary := s.primary.table
  let rows := primary.rows.filter (primary.satisfies select.condition)
  match select.join, s.secondary with
  | some j, some secondary => rows.flatMap (j.pairings primary secondary.table)
  | _, _ => rows.map fun row => ⟨row, none⟩

end Select

end TableAccess
