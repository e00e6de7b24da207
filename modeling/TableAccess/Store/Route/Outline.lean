import TableAccess.Store.Route.Term

/-!
# Outlines

What has to be known of a statement to decide how its tables are visited: the tables, the
parts of its condition, and the order that is wanted.
-/

namespace TableAccess

inductive Purpose where
  /-- Rows are shown in the order. -/
  | rows
  /-- Rows that agree have to stand together. -/
  | groups
  /-- Rows that agree have to stand together to be shown once. -/
  | distinct
  /-- Only the row at the front is needed. -/
  | extreme
  deriving DecidableEq, Repr

structure Wanted where
  purpose : Purpose
  columns : List (SidePlace × Direction)
  /-- Whether nulls come after everything else. -/
  nullsLast : Bool := false
  /-- Whether groups are shown in the order too. -/
  shown : Bool := false
  deriving Repr

/-- Whether only agreement counts, so that the columns may be taken in any order. -/
def Wanted.isLoose (w : Wanted) : Bool := w.purpose == .groups || w.purpose == .distinct

structure Outline where
  first : TableUse
  second : Option TableUse := none
  parts : List Part
  wanted : Option Wanted := none
  /-- How many columns are shown. -/
  shown : Nat := 0
  /-- The greatest number of rows, if it is fixed. -/
  limit : Option Nat := none
  /-- Whether repeated rows are left out. -/
  distinct : Bool := false
  /-- Whether rows are changed on the way. -/
  changes : Bool := false
  /-- Whether one alternative of a disjunction is visited, with the other table at hand. -/
  within : Bool := false
  deriving Repr

namespace Outline

def tableUse? (o : Outline) : Side → Option TableUse
  | .first => some o.first
  | .second => o.second

def typeOf (o : Outline) (c : SidePlace) : ColumnType :=
  ((o.tableUse? c.side).map fun t => t.definition.placeType c.place).getD .blob

/-- Whether rows of the second table are only looked for where the first one has one. -/
def isOuter (o : Outline) : Bool := (o.second.map (·.optional)).getD false

def partTerms (o : Outline) (number : Nat) : Part → List Term
  | .condition side p => ((o.tableUse? side).map fun t => t.predicateTerms side number p).getD []
  | .join first second =>
      let term : Term := { part := number, mentions := [first, second] }
      [{ term with bound := some ⟨first, .equal, some second⟩ },
        { term with derived := true, bound := some ⟨second, .equal, some first⟩ }]

def termsFrom (o : Outline) (number : Nat) (parts : List Part) : List Term :=
  Term.arranged (parts.zipIdx.map fun (part, n) => o.partTerms (number + n) part)

def terms (o : Outline) : List Term := o.termsFrom 0 o.parts

/-- The column that has the same cell as a given one in every row. -/
def twin? (o : Outline) (c : SidePlace) : Option SidePlace :=
  if o.isOuter then none
  else o.parts.findSome? fun
    | .join a b =>
        let agree := o.typeOf a == o.typeOf b
          || ((o.typeOf a).isNumeric && (o.typeOf b).isNumeric)
        if !agree then none else if c = a then some b else if c = b then some a else none
    | .condition .. => none

/-- Whether entries that are ordered by a column can be found by a bound, since both
compare cells alike. -/
def fits (o : Outline) (column : SidePlace) (b : Bound) : Bool :=
  let own := o.typeOf b.column
  let numeric := own.isNumeric || (b.partner.map fun p => (o.typeOf p).isNumeric).getD false
  if column.place == .number || b.relation == .null then true
  else if numeric then (o.typeOf column).isNumeric
  else if own = .text && b.partner.isNone then o.typeOf column == .text
  else true

/-- The terms that bound a column, or the column that is always equal to it. -/
def allBoundsOf (o : Outline) (terms : List Term) (column : SidePlace) : List (Term × Bound) :=
  let on (c : SidePlace) : List (Term × Bound) := terms.filterMap fun t =>
    t.bound.bind fun b => if b.column = c then some (t, b) else none
  on column ++ match o.twin? column with
    | some twin => (on twin).filter fun (_, b) => b.partner != some column
    | none => []

/-- The terms by which entries that are ordered by a column can be found. -/
def boundsOf (o : Outline) (terms : List Term) (column : SidePlace) : List (Term × Bound) :=
  (o.allBoundsOf terms column).filter fun (_, b) => o.fits column b

/-- Whether a bound can only be used when a row of the other table is at hand. -/
def asksFor (o : Outline) (b : Bound) : Bool := b.partner.isSome && !o.within

end Outline

end TableAccess
