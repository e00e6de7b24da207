import TableAccess.Store.Pairing
import TableAccess.Store.Summary

/-!
# Groups

Pairings that agree in the grouping columns are one group, and each group gives one
row: the aggregates over the group, and columns of one of its pairings.
-/

namespace TableAccess

/-- A list without the later ones of elements that count as the same. -/
def distinctBy {α : Type} (same : α → α → Bool) : List α → List α
  | [] => []
  | first :: rest => first :: (distinctBy same rest).filter fun other => !same first other

def sameCells (first second : List Cell) : Bool :=
  first.length == second.length && (first.zip second).all fun (a, b) => a.same b

def orderCells (first second : List Cell) : Ordering :=
  (first.zip second).foldr (fun (a, b) later => (a.order b).then later) .eq

namespace Select

def isGrouped (select : Select) : Bool :=
  !select.groupBy.isEmpty || select.projections.any fun
    | .aggregate .. => true
    | .column .. => false

/-- The direction in which groups come: that of the order, if there is one column of each. -/
def groupDirection (select : Select) : Direction :=
  match select.groupBy, select.order with
  | [_], some (_, direction) => direction
  | _, _ => .ascending

def groupPrecedes (select : Select) (first second : List Cell) : Bool :=
  match select.groupDirection with
  | .ascending => orderCells first second != .gt
  | .descending => orderCells first second != .lt

/-- The pairings in groups: those that agree in the grouping columns, in the order
of these columns; if members of groups stand together already, groups are left where they
are. Without grouping columns all are one group, even if there are none. -/
def groups (select : Select) (s : Sources) (together : Bool) (all : List Pairing) :
    List (List Pairing) :=
  if select.groupBy.isEmpty then [all]
  else
    let key (p : Pairing) : List Cell := select.groupBy.map (s.primary.table.cellAt p.primary)
    let keys := distinctBy sameCells (all.map key)
    (if together then keys else keys.mergeSort select.groupPrecedes).map fun k =>
      all.filter fun p => sameCells k (key p)

/-- The extreme that is shown last among the aggregates: which order it looks for, and
in which column. -/
def lastExtreme? (select : Select) : Option (Ordering × String × String) :=
  select.projections.reverse.findSome? fun
    | .aggregate .min table field _ => some (.lt, table, field)
    | .aggregate .max table field _ => some (.gt, table, field)
    | _ => none

/-- The later of two pairings if its cell is more extreme, or if there was none before. -/
def moreExtreme (wanted : Ordering) (cell : Pairing → Cell) (best later : Pairing) : Pairing :=
  if (cell later).isNull then if (cell best).isNull then later else best
  else if (cell best).isNull || (cell later).order (cell best) == wanted then later
  else best

/-- The pairing whose columns a group shows beside its aggregates: the one with the
extreme shown last, or the first one if no extreme is shown. -/
def shownPairing? (select : Select) (s : Sources) : List Pairing → Option Pairing
  | [] => none
  | first :: rest =>
      match select.lastExtreme? with
      | some (wanted, table, field) =>
          some (rest.foldl (moreExtreme wanted fun p => s.cellAt select p table field) first)
      | none => some first

def groupCell (select : Select) (s : Sources) (group : List Pairing) :
    Projection → Except Fault Cell
  | .column table field =>
      .ok (((select.shownPairing? s group).map fun p => s.cellAt select p table field).getD .null)
  | .aggregate function table field _ =>
      function.apply (group.map fun p => s.cellAt select p table field)

end Select

end TableAccess
