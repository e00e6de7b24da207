import TableAccess.Store.Change
import TableAccess.Store.Route.Search

/-!
# Visits

The order in which a chosen route visits rows, as a comparison of rows.
-/

namespace TableAccess

inductive Visit where
  /-- By the cells at places, of which the first one may count the other way round. -/
  | along (places : List CellPlace) (descending backwards : Bool)
  /-- By the first alternative that a row satisfies. -/
  | through (alternatives : List (Predicate × Visit))

def StoredRow.orderAlong (places : List CellPlace) (descending : Bool)
    (first second : StoredRow) : Ordering :=
  let order (place : CellPlace) : Ordering := (first.at place).order (second.at place)
  match places with
  | [] => .eq
  | place :: rest =>
      let leading := if descending then (order place).swap else order place
      leading.then ((rest.map order).foldr Ordering.then .eq)

namespace Visit

mutual

def order (t : StoredTable) (first second : StoredRow) : Visit → Ordering
  | along places descending backwards =>
      let o := first.orderAlong places descending second
      if backwards then o.swap else o
  | through alternatives => orderThrough t first second alternatives

/-- Which of two rows is visited first if alternatives follow each other. -/
def orderThrough (t : StoredTable) (first second : StoredRow) :
    List (Predicate × Visit) → Ordering
  | [] => .eq
  | (alternative, visit) :: rest =>
      match t.satisfies alternative first, t.satisfies alternative second with
      | true, true => order t first second visit
      | true, false => .lt
      | false, true => .gt
      | false, false => orderThrough t first second rest

end

end Visit

namespace Outline

/-- The statement within one alternative of a part: the alternative and every other part
that can bound a column, with the tables outside at hand. -/
def inner (o : Outline) (outside : List Side) (side : Side) (tableUse : TableUse)
    (chosen : Nat) (alternative : Predicate) : Outline :=
  let others := (o.parts.zipIdx.filter fun (part, n) =>
    n != chosen && (o.partTerms n part).any fun t =>
      !t.derived && (t.bound.isSome || !t.alternatives.isEmpty)).map (·.1)
  let moved : Part → List Part
    | .condition of p => if of = side then [.condition .first p] else []
    | .join a b =>
        let own := if a.side = side then a else b
        let other := if a.side = side then b else a
        let alike := (o.typeOf own).isNumeric || !(o.typeOf other).isNumeric
        if outside.contains other.side && (alike || own.place == .number) then
          [.join { own with side := .first } { other with side := .second }]
        else []
  { first := tableUse
    parts := alternative.conjuncts.map (.condition .first) ++ others.flatMap moved
    within := true }

/-- The order in which a way visits rows. The number bounds how deep alternatives are
nested. -/
def visit (o : Outline) (outside : List Side) (rows : Estimate) (w : Way) (backwards : Bool) :
    Nat → Visit
  | 0 => .along [] false false
  | depth + 1 =>
      match w.method, o.tableUse? w.side with
      | .index i, _ => .along i.places i.descending backwards
      | .alternatives part, some tableUse =>
          let alternatives := (o.terms.find? fun t => t.part == part && !t.derived).map
            (·.alternatives)
          .through ((alternatives.getD []).map fun alternative =>
            let inner := o.inner outside w.side tableUse part alternative
            let start := min rows 48
            match inner.route? start with
            | some r =>
                match r.ways with
                | [chosen] => (alternative, visit inner [] (start + r.rows) chosen false depth)
                | _ => (alternative, .along [] false false)
            | none => (alternative, .along [] false false))
      | .alternatives _, none => .along [] false false

end Outline

/-- The order in which a statement visits its tables, the outermost first. -/
structure Itinerary where
  visits : List (Side × Visit)
  /-- Whether the wanted order is given. -/
  ordered : Bool
  deriving Inhabited

namespace Outline

/-- Whether the innermost way of a route goes through several rows in an order of its own. -/
def hasInnerOrder (r : Route) : Bool :=
  (r.ways.getLast?.map fun w =>
    !w.single && !(w.goesBy .numbers && w.uses fun
      | .among _ => true
      | _ => false)).getD false

/-- The ways that are gone backwards, once a route was chosen. Where the order is not given
at all, the innermost way is turned so that it gives the order by itself. Groups that stand
together anyway come in the order in which they are shown, if that can be. -/
def turned (o : Outline) (r : Route) : List Bool :=
  match o.wanted with
  | none => []
  | some wanted =>
      let columns := wanted.columns.length
      if wanted.purpose = .distinct then []
      else if r.given.getD 0 = 0 then
        let inside := o.givenInside wanted r
        if hasInnerOrder r && inside.count == some columns then inside.reversed else []
      else if wanted.shown && r.given == some columns then
        let again := o.given { wanted with purpose := .rows } false r.ways
        if again.count == some columns then again.reversed else r.reversed
      else r.reversed

def itinerary (o : Outline) : Itinerary :=
  match o.route? 0 with
  | none => ⟨[], false⟩
  | some r =>
      let turned := o.turned r
      let visits := r.ways.zipIdx.map fun (w, n) =>
        let outside := (r.ways.take n).map (·.side)
        (w.side, o.visit outside r.rows w (turned.getD n false) (o.choices + 1))
      let columns := (o.wanted.map fun wanted => wanted.columns.length).getD 0
      ⟨visits, r.given == some columns⟩

end Outline

end TableAccess
