/-!
# Operators

The comparisons that a filter can ask for. Each but equality is chosen by the
suffix of a key.
-/

namespace TableAccess

inductive Operator where
  | eq
  | not
  | gt
  | gte
  | lt
  | lte
  | isIn
  | notIn
  | like
  deriving DecidableEq, Repr

namespace Operator

/-- The suffix that chooses the operator; equality has none. -/
def suffix? : Operator → Option String
  | eq => none
  | not => some "not"
  | gt => some "gt"
  | gte => some "gte"
  | lt => some "lt"
  | lte => some "lte"
  | isIn => some "in"
  | notIn => some "notin"
  | like => some "like"

def ofSuffix? (suffix : String) : Option Operator :=
  if suffix = "not" then some not
  else if suffix = "gt" then some gt
  else if suffix = "gte" then some gte
  else if suffix = "lt" then some lt
  else if suffix = "lte" then some lte
  else if suffix = "in" then some isIn
  else if suffix = "notin" then some notIn
  else if suffix = "like" then some like
  else none

def takesList : Operator → Bool
  | isIn | notIn => true
  | _ => false

def label (op : Operator) : String := op.suffix?.getD "eq"

def symbol : Operator → String
  | eq => "="
  | not => "!="
  | gt => ">"
  | gte => ">="
  | lt => "<"
  | lte => "<="
  | isIn => "IN"
  | notIn => "NOT IN"
  | like => "LIKE"

/-- A suffix is read as the operator that it chooses, and as no other. -/
theorem ofSuffix?_eq_some_iff {suffix : String} {op : Operator} :
    ofSuffix? suffix = some op ↔ op.suffix? = some suffix := by
  constructor
  · intro read
    unfold ofSuffix? at read
    repeat' split at read
    all_goals simp_all
    all_goals cases read; rfl
  · intro chosen
    cases op <;> simp only [suffix?, Option.some.injEq, reduceCtorEq] at chosen <;>
      subst chosen <;> rfl

end Operator

end TableAccess
