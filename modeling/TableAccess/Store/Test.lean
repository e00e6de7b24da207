import TableAccess.Predicate.Basic
import TableAccess.Store.Affinity
import TableAccess.Store.Like

/-!
# Tests on cells

The truth of a condition's question about a stored cell. Comparisons with null
are unknown; membership in a list is a disjunction of equalities.
-/

namespace TableAccess

namespace Operator

def accepts : Operator → Ordering → Bool
  | eq, o => o == .eq
  | not, o => o != .eq
  | gt, o => o == .gt
  | gte, o => o != .lt
  | lt, o => o == .lt
  | lte, o => o != .gt
  | isIn, o => o == .eq
  | notIn, o => o != .eq
  | like, _ => false

def truth (op : Operator) (type : ColumnType) (cell operand : Cell) : Truth :=
  if cell.isNull || operand.isNull then .unknown
  else if op = like then
    match Like.subject? cell, Like.subject? operand with
    | some subject, some pattern => .ofBool (Like.matchesPattern pattern subject)
    | _, _ => .unknown
  else
    let (left, right) := type.comparable cell operand
    .ofBool (op.accepts (left.order right))

end Operator

def Test.truth (type : ColumnType) (cell : Cell) : Test → Truth
  | isNull => .ofBool cell.isNull
  | isNotNull => .ofBool !cell.isNull
  | value op v => op.truth type cell (.ofValue v)
  | list op vs =>
      let equalities := vs.map fun v => Operator.eq.truth type cell (.ofValue v)
      if op = .notIn then (Truth.any equalities).not else .any equalities

end TableAccess
