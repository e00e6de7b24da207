import TableAccess.Store.Route.Order

/-!
# Search for a route

The cheapest route is looked for twice: first without regard to the wanted order, which
tells how many rows there are, and then with the cost of sorting so many rows added to
each route that does not give the order.
-/

namespace TableAccess

/-- A route on its way: the tables that are visited so far, the outermost first. -/
structure Route where
  ways : List Way := []
  reversed : List Bool := []
  rows : Estimate
  cost : Estimate := 0
  /-- The cost without sorting. -/
  unsorted : Estimate := 0
  /-- How many wanted columns are given; missing as long as further ways can give more. -/
  given : Option Nat
  deriving Repr

namespace Route

def sides (r : Route) : List Side := r.ways.map (·.side)

/-- Whether a route can be continued by a way. Entries are not made for a single row. -/
def admits (r : Route) (w : Way) : Bool :=
  !r.sides.contains w.side && (!w.needs || r.sides.contains w.side.other)
    && !(w.isMade && r.rows < 3)

/-- Whether two routes answer the same question: they visit the same tables and both have
settled, or both not, how much of the order they give. -/
def isRival (a b : Route) : Bool :=
  a.sides.all b.sides.contains && b.sides.all a.sides.contains
    && a.given.isSome == b.given.isSome

/-- Whether a known route stays although a new one answers the same question. -/
def stays (known new : Route) : Bool :=
  known.cost < new.cost || (known.cost == new.cost
    && (known.rows < new.rows || (known.rows == new.rows && known.unsorted ≤ new.unsorted)))

def keep (new : Route) : List Route → List Route
  | [] => [new]
  | known :: rest =>
      if known.isRival new then (if known.stays new then known else new) :: rest
      else known :: keep new rest

end Route

namespace Outline

/-- The cost of sorting so many rows, of whose order a number of columns is given. -/
def sortCost (o : Outline) (rows : Estimate) (columns given : Nat) : Estimate :=
  let size := rows + .ofCount ((o.shown + 59) / 30)
  let share := if given = 0 then 0 else .ofCount ((columns - given) * 100 / columns) - 66
  match o.limit with
  | some limit =>
      let extra := if given = 0 then 10 else 16
      size + share + extra + Estimate.search (min (.ofCount limit) rows)
  | none =>
      size + share + Estimate.search (if o.distinct && 10 < rows then rows - 10 else rows)

/-- A route continued by a way. If rows are to be sorted, their number is given. -/
def continued (o : Outline) (sorting : Option (Wanted × Estimate)) (r : Route) (w : Way) :
    Route :=
  let once := w.run + r.rows
  let unsorted := (if w.setup = 0 then once else w.setup.plus once).plus r.unsorted
  let ways := r.ways ++ [w]
  let rows := r.rows + w.rows
  let finished (given : Option Nat) (reversed : List Bool) : Route :=
    { ways, rows, given, reversed, cost := unsorted, unsorted := unsorted - 2 }
  match sorting with
  | none => finished (some 0) []
  | some (wanted, count) =>
      let found : Given := match r.given with
        | some given => ⟨some given, r.reversed⟩
        | none => o.given wanted (wanted.purpose == .extreme) ways
      let columns := wanted.columns.length
      match found.count with
      | some given =>
          if given < columns then
            { ways, rows, given := some given, reversed := found.reversed, unsorted
              cost := unsorted.plus (o.sortCost count columns given) + 3 }
          else finished (some given) found.reversed
      | none => finished none found.reversed

def extended (o : Outline) (sorting : Option (Wanted × Estimate)) (ways : List Way)
    (routes : List Route) : List Route :=
  (routes.flatMap fun r => (ways.filter r.admits).map (o.continued sorting r)).foldl
    (fun known r => Route.keep r known) []

/-- The cheapest route through all tables that starts with so many rows. -/
def cheapest? (o : Outline) (start : Estimate) (sorting : Option (Wanted × Estimate))
    (ways : List Way) : Option Route :=
  let given := if sorting.isSome then none else some 0
  let single := o.extended sorting ways [{ rows := start, given }]
  let all := if o.second.isSome then o.extended sorting ways single else single
  match all with
  | [] => none
  | first :: rest => some (rest.foldl (fun best r => if r.cost < best.cost then r else best) first)

/-- The tables at the front of a route that are visited by the value of an index. -/
def keyedSides : List Way → List Side
  | [] => []
  | w :: rest =>
      let keyed := w.uses fun
        | .equal | .null | .among _ => true
        | _ => false
      if keyed then w.side :: keyedSides rest else []

/-- The ways that are left after a first route was found. What that route visits by the
value of an index is not visited as a whole for the sake of the order. -/
def remaining (first : Route) (ways : List Way) : List Way :=
  let keyed := keyedSides first.ways
  ways.filter fun w => !keyed.contains w.side || w.isBounded || w.isMade

/-- The cheapest route, with the number of rows that it starts with. -/
def route? (o : Outline) (start : Estimate) : Option Route := do
  let first ← o.cheapest? start none o.ways
  match o.wanted with
  | none => some first
  | some wanted => o.cheapest? start (some (wanted, first.rows + 1)) (remaining first o.ways)

/-- What the innermost way of a route gives of an order of rows by itself. -/
def givenInside (o : Outline) (wanted : Wanted) (r : Route) : Given :=
  match r.ways.reverse with
  | [] => ⟨some 0, []⟩
  | inner :: outer =>
      let start : Giving :=
        { wanted := { wanted with purpose := .rows }
          given := wanted.columns.map fun _ => false
          outside := outer.map (·.side)
          reversed := outer.map fun _ => false }
      match start.step o true inner with
      | some g => ⟨if g.isDone then some wanted.columns.length else none, g.reversed⟩
      | none => ⟨none, []⟩

end Outline

end TableAccess
