import TableAccess.Store.Route.Visit

/-!
# The order of updating

An update looks for its rows by the cheapest route too. It changes them on the way if that
cannot disturb the visits: if no reference, no row number and no primary key is concerned,
and nothing that the visits are ordered by is changed. Otherwise it finds all rows first and
changes them in the order in which the table keeps them.
-/

namespace TableAccess

namespace StoredTable

def updateOutline (t : StoredTable) (condition : Predicate) (increments : List String) :
    Outline :=
  let names := (condition.fields.map fun (_, field) => field) ++ increments
  { first :=
      { definition := t.definition
        used := (names.filterMap t.definition.orderPlace?).filter (· != .number) }
    parts := condition.conjuncts.map (.condition .first)
    changes := true }

/-- Whether assignments change what finds a row. -/
def moves (t : StoredTable) (assigned : List String) : Bool :=
  assigned.any t.definition.namesNumber
    || (t.definition.withoutRowid && t.definition.keyColumns.any fun c =>
      Concern.changes t assigned c.name)

/-- The order in which rows are changed on the way, if it is that of a key. -/
def updateVisit? {α : Type} (db : Database) (t : StoredTable) (condition : Predicate)
    (assignments : List (Assignment α)) : Option Visit := do
  let assigned := assignments.map (·.column)
  let increments := (assignments.filter (·.increment)).map (·.column)
  let route ← (t.updateOutline condition increments).route? 0
  let way ← route.ways.head?
  let i ← way.index?
  let changed := assigned.filterMap t.definition.orderPlace?
  if way.goesByKey && (Concern.ofUpdate db t assigned).isEmpty && !t.moves assigned
      && !i.key.any changed.contains then
    some (.along i.places i.descending false)
  else none

def inUpdateOrder {α : Type} (db : Database) (t : StoredTable) (condition : Predicate)
    (assignments : List (Assignment α)) (rows : List StoredRow) : List StoredRow :=
  match t.updateVisit? db condition assignments with
  | some visit => rows.mergeSort fun a b => visit.order t a b != .gt
  | none => rows

end StoredTable

end TableAccess
