import TableAccess.Row
import TableAccess.Store.Legible
import TableAccess.Store.Route.Reading

/-!
# Reading

The rows that a checked query selects from a database: its pairings, each alone or
in groups, made distinct, ordered, and cut to a page.
-/

namespace TableAccess

/-- A row of a result on its way, with the cell that it is ordered by. -/
structure ResultRow where
  cells : List Cell
  orderCell : Cell
  deriving DecidableEq, Repr

namespace Select

def labelPosition? (select : Select) (name : String) : Option Nat :=
  select.projections.findIdx? fun
    | .aggregate _ _ _ label => Text.same label name
    | .column .. => false

def orderCell (select : Select) (s : Sources) (shown? : Option Pairing) (cells : List Cell) :
    Cell :=
  match select.order with
  | none => .null
  | some (.column field, _) =>
      (shown?.map fun p => s.primary.table.cellAt p.primary field).getD .null
  | some (.aggregate name, _) =>
      ((select.labelPosition? name).bind fun position => cells[position]?).getD .null

/-- The rows of a query before they are made distinct, ordered and cut. -/
def resultRows (select : Select) (s : Sources) : Except Fault (List ResultRow) :=
  let itinerary := (select.outline s).itinerary
  let all := select.visited s itinerary
  let grouped :=
    if select.isGrouped then
      select.groups s itinerary.ordered (select.aggregated s itinerary all)
    else all.map fun p => [p]
  grouped.mapM fun group => do
    let cells ← select.projections.mapM (select.groupCell s group)
    pure ⟨cells, select.orderCell s (select.shownPairing? s group) cells⟩

/-- Puts rows in the order of a query; rows that are equal in it keep their order. -/
def sorted (select : Select) (rows : List ResultRow) : List ResultRow :=
  match select.order with
  | none => rows
  | some (_, .ascending) => rows.mergeSort fun a b => a.orderCell.order b.orderCell != .gt
  | some (_, .descending) => rows.mergeSort fun a b => a.orderCell.order b.orderCell != .lt

/-- The page of a list: the offset is left out first, and zero is no limit. -/
def page {α : Type} (select : Select) (rows : List α) : List α :=
  let rest := rows.drop select.offset
  if select.limit = 0 then rest else rest.take select.limit

def allRows (select : Select) (s : Sources) : Except Fault (List (List Cell)) := do
  let rows ← select.resultRows s
  let distinct :=
    if select.distinct then distinctBy (fun a b => sameCells a.cells b.cells) rows else rows
  pure ((select.sorted distinct).map (·.cells))

def columnNames (select : Select) (s : Sources) : List String :=
  select.projections.map fun
    | .column table field => s.shownName select table field
    | .aggregate _ _ _ label => label

/-- The tables of a query that a table's name in a column stands for. -/
def sourcesOf (select : Select) (s : Sources) (table : String) : List Source :=
  (if Text.same table select.table then [s.primary] else [])
    ++ match select.join, s.secondary with
      | some j, some source => if Text.same table j.table then [source] else []
      | _, _ => []

/-- Refuses a column that no table of a query has, or more than one. A name for row
numbers counts where no table has a column of the name. -/
def checkColumn (select : Select) (s : Sources) (table field : String) : Except Fault Unit :=
  let sources := select.sourcesOf s table
  let named := sources.filter fun source =>
    (source.table.definition.position? field).isSome
  let answering := if named.isEmpty then sources.filter (·.hasColumn field) else named
  match answering with
  | [] => .error (.noSuchColumn s!"{table}.{field}")
  | [_] => .ok ()
  | _ => .error (.ambiguousColumn table field)

/-- The greatest limit and offset that a statement can hold. -/
def greatestPage : Nat := Nat.pow 2 63 - 1

end Select

namespace Database

/-- Reads a query, and finds its tables and every column that it mentions. -/
def prepareSelect (db : Database) (select : Select) : Except Fault Sources := do
  let sql := select.statement.sql
  Sql.requireWhole sql
  Sql.requireShallow select.writtenDepth
  let primary ← db.source select.table
  let secondary ← select.join.mapM fun j => db.source j.table
  let sources : Sources := ⟨primary, secondary⟩
  Sql.requireShallow select.depth
  select.mentions.forM fun m =>
    (select.checkColumn sources m.table m.field).mapError (m.locate sql)
  pure sources

def runSelect (select : Select) (s : Sources) : Except Fault (List Row) := do
  if Select.greatestPage < select.limit ∨ Select.greatestPage < select.offset then
    throw .datatypeMismatch
  let rows ← select.allRows s
  pure ((select.page rows).map fun cells => ⟨select.columnNames s, cells.map Cell.toValue⟩)

def select (db : Database) (select : Select) : Except Fault (List Row) := do
  runSelect select (← db.prepareSelect select)

def dump (t : StoredTable) : List Row :=
  t.rows.map fun row =>
    ⟨t.definition.columns.map (·.name), row.cells.map Cell.toValue⟩

end Database

end TableAccess
