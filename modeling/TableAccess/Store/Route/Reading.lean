import TableAccess.Query.Mention
import TableAccess.Store.Group
import TableAccess.Store.Route.Visit

/-!
# The order of reading

A query visits its tables by the cheapest route. Its pairings come in the order of the
visits; this decides which rows of equal ones stand first, and which row of a group is
shown.
-/

namespace TableAccess

namespace Sources

def source? (s : Sources) : Side → Option Source
  | .first => some s.primary
  | .second => s.secondary

end Sources

namespace Select

/-- The column of a query that a name in one of its tables stands for. -/
def sidePlace? (select : Select) (s : Sources) (table column : String) : Option SidePlace := do
  let side := if Text.same table select.table then Side.first else .second
  let source ← s.source? side
  let place ← source.table.definition.orderPlace? column
  pure ⟨side, place⟩

def shownPlaces (select : Select) (s : Sources) : List SidePlace :=
  select.projections.filterMap fun
    | .column table field => select.sidePlace? s table field
    | .aggregate .. => none

def usedCells (select : Select) (s : Sources) (side : Side) : List CellPlace :=
  (select.mentions.filterMap fun m => select.sidePlace? s m.table m.field).filterMap fun c =>
    if c.side = side ∧ c.place ≠ .number then some c.place else none

/-- The parts of the condition of a query: those on rows before those of the join. -/
def parts (select : Select) (s : Sources) : List Part :=
  (select.condition.conjuncts.map (.condition .first))
    ++ match select.join with
      | none => []
      | some j =>
          let equality := do
            let a ← select.sidePlace? s select.table j.primaryColumn
            let b ← select.sidePlace? s j.table j.secondaryColumn
            pure (Part.join a b)
          equality.toList ++ j.condition.conjuncts.map (.condition .second)

/-- The one extreme that is all that a query takes over its rows. -/
def onlyExtreme? (select : Select) : Option (Direction × String × String) :=
  let asked := select.projections.filterMap fun
    | .aggregate function table field _ => some (function, table, field)
    | .column .. => none
  match asked with
  | [] => none
  | first :: rest =>
      if !select.groupBy.isEmpty || rest.any (· != first) then none
      else
        match first with
        | (.min, table, field) => some (.ascending, table, field)
        | (.max, table, field) => some (.descending, table, field)
        | _ => none

/-- The columns in which rows that are shown once have to stand together. -/
def distinctWanted (columns : List SidePlace) : Wanted where
  purpose := .distinct
  columns := columns.map fun c => (c, .ascending)

/-- Whether a query without aggregates is ordered by the one column that it shows, so that
leaving out repeated rows and ordering them is the same work. -/
def ordersDistinct (select : Select) (s : Sources) : Bool :=
  match select.order, select.projections with
  | some (.column field, .ascending), [.column table shown] =>
      select.distinct
        && select.sidePlace? s select.table field == select.sidePlace? s table shown
  | _, _ => false

/-- Whether the shown columns tell all rows of the table apart. -/
def isDistinctAnyway (select : Select) (s : Sources) (o : Outline) : Bool :=
  let shown := select.shownPlaces s
  let table := s.primary.table.definition
  let settles (place : CellPlace) : Bool :=
    ((o.boundsOf o.terms ⟨.first, place⟩).any fun (_, b) => b.relation == .equal)
      || (shown.contains ⟨.first, place⟩ && !table.canBeNull place)
  s.secondary.isNone && (shown.any (fun c => c.place == .number)
    || table.indexes.any fun i => i.kind != .numbers && i.key.all settles)

def wanted? (select : Select) (s : Sources) (o : Outline) : Option Wanted :=
  if select.isGrouped then
    match select.onlyExtreme? with
    | some (direction, table, field) => do
        let c ← select.sidePlace? s table field
        let nullable := s.primary.table.definition.canBeNull c.place
        pure
          { purpose := .extreme
            columns := [(c, direction)]
            nullsLast := direction == .ascending && nullable }
    | none =>
        if select.groupBy.isEmpty then none
        else
          let places := select.groupBy.filterMap (select.sidePlace? s select.table)
          let shown := match select.order with
            | some (.column field, _) =>
                places == (select.sidePlace? s select.table field).toList
            | _ => false
          some
            { purpose := .groups
              columns := places.map fun c => (c, select.groupDirection)
              shown }
  else
    match select.order with
    | some (.column field, direction) => do
        let c ← select.sidePlace? s select.table field
        if select.ordersDistinct s then pure (distinctWanted [c])
        else pure { purpose := .rows, columns := [(c, direction)] }
    | _ =>
        if select.distinct && !select.isDistinctAnyway s o then
          some (distinctWanted (select.shownPlaces s))
        else none

/-- What has to be known of a query to decide how its tables are visited. -/
def outline (select : Select) (s : Sources) : Outline :=
  let plain : Outline :=
    { first :=
        { definition := s.primary.table.definition
          used := select.usedCells s .first }
      second := s.secondary.map fun source =>
        { definition := source.table.definition
          used := select.usedCells s .second
          optional := (select.join.map (·.outer)).getD false }
      parts := select.parts s
      shown := select.projections.length }
  let bare := select.isGrouped || select.ordersDistinct s
  { plain with
    wanted := select.wanted? s plain
    limit :=
      if bare || select.limit = 0 || Nat.pow 2 31 ≤ select.limit then none else some select.limit
    distinct := select.distinct && !bare }

end Select

namespace Itinerary

def order (i : Itinerary) (s : Sources) (first second : Pairing) : Ordering :=
  let compare : Side × Visit → Ordering
    | (.first, visit) => visit.order s.primary.table first.primary second.primary
    | (.second, visit) =>
        match s.secondary, first.secondary, second.secondary with
        | some source, some a, some b => visit.order source.table a b
        | _, _, _ => .eq
  (i.visits.map compare).foldr Ordering.then .eq

end Itinerary

namespace Select

def visited (select : Select) (s : Sources) (i : Itinerary) : List Pairing :=
  (select.pairings s).mergeSort fun a b => i.order s a b != .gt

/-- The pairings of the one group that a query without grouping columns makes. If it only
asks for an extreme and the order gives that, nothing is visited after the first row. -/
def aggregated (select : Select) (s : Sources) (i : Itinerary) (all : List Pairing) :
    List Pairing :=
  match select.onlyExtreme? with
  | some (direction, table, field) =>
      if !i.ordered then all
      else
        let missing (p : Pairing) : Bool := (s.cellAt select p table field).isNull
        let front := if direction = .ascending then
            all.filter (fun p => !missing p) ++ all.filter missing
          else all
        front.take 1
  | none => all

end Select

end TableAccess
