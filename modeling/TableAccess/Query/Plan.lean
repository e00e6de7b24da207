import TableAccess.Predicate.Compile
import TableAccess.Query.Select
import TableAccess.Schema.Snapshot

/-!
# Checking queries

Finds every name of a query in a snapshot. The checks follow a fixed order:
tables, shown columns, aggregates, filter, join, grouping, ordering; the first
that fails gives the error.
-/

namespace TableAccess

def joinFromElsewhere (join : Join) (table : String) : Error :=
  .invalidRequest
    (s!"join primary table '{join.primaryTable}' must be the queried table '{table}'")

namespace Query

def resolveJoin (q : Query) (snapshot : Snapshot) : Except Error (Option (Join × Table)) :=
  match q.join with
  | none => pure none
  | some join => do
      if join.primaryTable ≠ q.table then throw (joinFromElsewhere join q.table)
      pure (some (join, ← snapshot.resolve join.secondaryTable))

def columnProjections (t : Table) : List String → Except Error (List Projection)
  | [] => pure []
  | name :: rest => do
      let _ ← t.requireColumn name
      pure (.column t.name name :: (← columnProjections t rest))

def aggregateProjection (t : Table) (a : Aggregate) : Except Error Projection := do
  let some function := AggregateFunction.ofName? a.function
    | throw (.unsupportedAggregate a.label a.function)
  let c ← t.requireColumn a.column
  if function.isArithmetic && !c.type.isNumeric then
    throw (.unsupportedAggregate a.label a.function)
  pure (.aggregate function t.name a.column a.label)

def aggregateProjections (t : Table) : List Aggregate → Except Error (List Projection)
  | [] => pure []
  | a :: rest => do
      let shown ← aggregateProjection t a
      pure (shown :: (← aggregateProjections t rest))

/-- What a query shows: columns of the queried table, then of the joined one, then
the aggregates. -/
def projections (q : Query) (t : Table) (joined : Option (Join × Table)) :
    Except Error (List Projection) := do
  let primary ←
    if q.columns.isEmpty then pure (t.columns.map fun c => .column t.name c.name)
    else columnProjections t q.columns
  let secondary ← match joined with
    | some (join, s) => columnProjections s join.columns
    | none => pure []
  let aggregates ← aggregateProjections t q.aggregates
  pure (primary ++ secondary ++ aggregates)

def joinedTable (t : Table) (joined : Option (Join × Table)) :
    Except Error (Option JoinedTable) :=
  match joined with
  | none => pure none
  | some (join, s) => do
      let _ ← t.requireColumn join.primaryColumn
      let _ ← s.requireColumn join.secondaryColumn
      let condition ← s.compile join.condition
      pure (some ⟨s.name, join.outer, join.primaryColumn, join.secondaryColumn, condition⟩)

/-- Finds what a query is ordered by: a column of the queried table before the
label of an aggregate. -/
def orderTarget (q : Query) (t : Table) : Except Error (Option (OrderTarget × Direction)) :=
  match q.order with
  | none => pure none
  | some name =>
      if t.hasColumn name then pure (some (.column name, q.direction))
      else if q.aggregates.any fun a => a.label == name then
        pure (some (.aggregate name, q.direction))
      else throw (.unknownColumn t.name name)

def plan (q : Query) (snapshot : Snapshot) : Except Error Select := do
  let t ← snapshot.resolve q.table
  let joined ← q.resolveJoin snapshot
  let projections ← q.projections t joined
  let condition ← t.compile q.filter
  let join ← joinedTable t joined
  let _ ← columnProjections t q.groupBy
  let order ← q.orderTarget t
  pure
    { table := t.name
      distinct := q.distinct
      projections
      join
      condition
      groupBy := q.groupBy
      order
      limit := q.limit
      offset := q.offset }

end Query

end TableAccess
