import TableAccess.Filter.Operator
import TableAccess.Predicate.Truth
import TableAccess.Value.Basic

/-!
# Predicates

Conditions on the columns of tables, combined by conjunction and disjunction.
The combining functions fold constants away, and keep apart the predicate that
restricts nothing because nothing was asked from a condition that happens to be
always true.
-/

namespace TableAccess

inductive Operand where
  | value (v : Value)
  | list (vs : List Value)
  deriving DecidableEq, Repr

structure Condition where
  table : String
  field : String
  operator : Operator
  operand : Operand
  deriving DecidableEq, Repr

inductive Predicate where
  /-- No restriction was asked for. -/
  | unrestricted
  /-- A fixed outcome, such as that of membership in an empty list. -/
  | const (outcome : Bool)
  | condition (c : Condition)
  | all (parts : List Predicate)
  | any (parts : List Predicate)
  deriving Repr, Inhabited

namespace Predicate

def isUnrestricted : Predicate → Bool
  | unrestricted => true
  | _ => false

def isConst (outcome : Bool) : Predicate → Bool
  | const fixed => fixed == outcome
  | _ => false

/-- Whether the predicate is true by its form alone. -/
def isTrivial (p : Predicate) : Bool := p.isUnrestricted || p.isConst true

/-- Conjunction with constants folded: a false part makes it false, true parts
drop out, and if only they were there the outcome is the constant true. -/
def conj (parts : List Predicate) : Predicate :=
  if parts.any (isConst false) then const false
  else
    match parts.filter fun part => !part.isTrivial with
    | [] => if parts.any (isConst true) then const true else unrestricted
    | [part] => part
    | kept => all kept

/-- Disjunction with constants folded: a true part makes it true and false parts
drop out. A disjunction of nothing restricts nothing. -/
def disj (parts : List Predicate) : Predicate :=
  if parts.isEmpty then unrestricted
  else if parts.any isTrivial then const true
  else
    match parts.filter fun part => !part.isConst false with
    | [] => const false
    | [part] => part
    | kept => any kept

mutual

def truth (atom : Condition → Truth) : Predicate → Truth
  | unrestricted => .yes
  | const outcome => .ofBool outcome
  | condition c => atom c
  | all parts => .all (truths atom parts)
  | any parts => .any (truths atom parts)

def truths (atom : Condition → Truth) : List Predicate → List Truth
  | [] => []
  | part :: rest => part.truth atom :: truths atom rest

end

theorem truths_eq_map (atom : Condition → Truth) (parts : List Predicate) :
    truths atom parts = parts.map (truth atom) := by
  induction parts with
  | nil => rfl
  | cons part rest ih => simp [truths, ih]

mutual

/-- The columns that a predicate mentions, from left to right. -/
def fields : Predicate → List (String × String)
  | condition c => [(c.table, c.field)]
  | all parts => partFields parts
  | any parts => partFields parts
  | _ => []

def partFields : List Predicate → List (String × String)
  | [] => []
  | part :: rest => part.fields ++ partFields rest

end

end Predicate

/-- The question that a condition puts to a column. Equality and inequality with
null ask whether the column is null; every other comparison is put as it is. -/
inductive Test where
  | isNull
  | isNotNull
  | value (op : Operator) (v : Value)
  | list (op : Operator) (vs : List Value)
  deriving DecidableEq, Repr

def Condition.test (c : Condition) : Test :=
  match c.operand, c.operator with
  | .value .null, .eq => .isNull
  | .value .null, .not => .isNotNull
  | .value v, op => .value op v
  | .list vs, op => .list op vs

end TableAccess
