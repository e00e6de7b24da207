import TableAccess.Query.Select
import TableAccess.Store.Index

/-!
# Terms

What the condition of a statement says about the columns of the tables that it reads.
The condition is a conjunction of parts. A part that compares one column can bound the
entries of an index that are visited; a disjunction can be visited alternative by
alternative; every other part only makes rows fewer.
-/

namespace TableAccess

inductive Side where
  | first
  | second
  deriving DecidableEq, Repr

def Side.other : Side → Side
  | first => second
  | second => first

structure SidePlace where
  side : Side
  place : CellPlace
  deriving DecidableEq, Repr

structure TableUse where
  definition : Definition
  /-- The cells that the statement looks at. -/
  used : List CellPlace
  /-- Whether rows of the other table are kept that find no partner here. -/
  optional : Bool := false
  deriving Repr

inductive Relation where
  | equal
  /-- One of a number of values. -/
  | among (count : Nat)
  | null
  | above
  | below
  /-- Above null. -/
  | present
  deriving DecidableEq, Repr

structure Bound where
  column : SidePlace
  relation : Relation
  /-- The column of the other table that it is compared with. -/
  partner : Option SidePlace := none
  deriving DecidableEq, Repr

inductive Part where
  | condition (side : Side) (p : Predicate)
  /-- The equality of the columns of a join. -/
  | join (first second : SidePlace)
  deriving Repr

structure Term where
  /-- The number of the part; what follows from a part has the same one. -/
  part : Nat
  /-- Whether it only follows from the part. -/
  derived : Bool := false
  /-- The places that it looks at. -/
  mentions : List SidePlace
  bound : Option Bound := none
  /-- The alternatives of a disjunction. -/
  alternatives : List Predicate := []
  deriving Repr

namespace Predicate

mutual

def conjuncts : Predicate → List Predicate
  | all parts => partConjuncts parts
  | unrestricted => []
  | p => [p]

def partConjuncts : List Predicate → List Predicate
  | [] => []
  | part :: rest => part.conjuncts ++ partConjuncts rest

end

mutual

def disjuncts : Predicate → List Predicate
  | any parts => partDisjuncts parts
  | p => [p]

def partDisjuncts : List Predicate → List Predicate
  | [] => []
  | part :: rest => part.disjuncts ++ partDisjuncts rest

end

mutual

def choices : Predicate → Nat
  | all parts => partChoices parts
  | any parts => partChoices parts + 1
  | _ => 0

def partChoices : List Predicate → Nat
  | [] => 0
  | part :: rest => part.choices + partChoices rest

end

end Predicate

/-- How a condition bounds its column, if an index can make use of it. -/
def Condition.relation? (c : Condition) : Option Relation :=
  match c.test with
  | .isNull => some .null
  | .isNotNull => some .present
  | .value .eq _ => some .equal
  | .value .gt _ => some .above
  | .value .gte _ => some .above
  | .value .lt _ => some .below
  | .value .lte _ => some .below
  | .list .isIn [_] => some .equal
  | .list .isIn vs => some (.among vs.length)
  | _ => none

namespace TableUse

/-- Whether a place can be null in what the table contributes. -/
def canBeNull (o : TableUse) (place : CellPlace) : Bool :=
  o.optional || o.definition.canBeNull place

def mentions (o : TableUse) (side : Side) (p : Predicate) : List SidePlace :=
  p.fields.filterMap fun (_, field) =>
    (o.definition.orderPlace? field).map fun place => ⟨side, place⟩

/-- The terms of a condition on one column. A question for null that the column settles
says nothing, and a demand that it is not null follows as a bound. -/
def conditionTerms (o : TableUse) (side : Side) (part : Nat) (c : Condition) : List Term :=
  let mentions := o.mentions side (.condition c)
  let term : Term := { part, mentions }
  match o.definition.orderPlace? c.field, c.relation? with
  | some place, some relation =>
      let bound : Bound := { column := ⟨side, place⟩, relation }
      match relation with
      | .null => [if o.canBeNull place then { term with bound } else { part, mentions := [] }]
      | .present =>
          if !o.canBeNull place then [{ part, mentions := [] }]
          else if place = .number || o.optional then [term]
          else [term, { term with derived := true, bound }]
      | _ => [{ term with bound }]
  | _, _ => [term]

/-- A disjunction of equalities of one column, as one bound. -/
def choiceOf? (o : TableUse) (side : Side) (alternatives : List Predicate) : Option Bound := do
  let places ← alternatives.mapM fun
    | .condition c =>
        if c.relation? = some .equal then o.definition.orderPlace? c.field else none
    | _ => none
  let place ← places.head?
  if places.all (· == place) then
    some { column := ⟨side, place⟩, relation := .among alternatives.length }
  else none

def predicateTerms (o : TableUse) (side : Side) (part : Nat) : Predicate → List Term
  | .condition c => o.conditionTerms side part c
  | p =>
      let term : Term := { part, mentions := o.mentions side p }
      match p.disjuncts with
      | [_] => [term]
      | alternatives =>
          { term with alternatives }
            :: ((o.choiceOf? side alternatives).map fun bound =>
              { term with derived := true, bound }).toList

end TableUse

namespace Term

/-- The terms of several parts, what stands there before what follows from it. What follows
from the last part comes first. -/
def arranged (terms : List (List Term)) : List Term :=
  (terms.flatMap fun own => own.filter fun t => !t.derived)
    ++ terms.reverse.flatMap fun own => own.filter (·.derived)

def isEquality (t : Term) : Bool := (t.bound.map fun b => b.relation == .equal).getD false

def concerns (t : Term) (side : Side) : Bool := t.mentions.any fun m => m.side == side

end Term

end TableAccess
