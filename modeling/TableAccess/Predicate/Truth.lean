/-!
# Three truth values

Comparisons with null are neither true nor false. Conjunction is the least and
disjunction the greatest of its parts in the order false, unknown, true.
-/

namespace TableAccess

/-- A truth value of three-valued logic. -/
inductive Truth where
  | no
  | unknown
  | yes
  deriving DecidableEq, Repr, Inhabited

namespace Truth

def ofBool : Bool → Truth
  | true => yes
  | false => no

def and : Truth → Truth → Truth
  | no, _ => no
  | _, no => no
  | unknown, _ => unknown
  | _, unknown => unknown
  | yes, yes => yes

def or : Truth → Truth → Truth
  | yes, _ => yes
  | _, yes => yes
  | unknown, _ => unknown
  | _, unknown => unknown
  | no, no => no

/-- Negation; what is unknown stays unknown. -/
def not : Truth → Truth
  | no => yes
  | unknown => unknown
  | yes => no

/-- The conjunction of a list; an empty one is true. -/
def all (parts : List Truth) : Truth := parts.foldr and yes

/-- The disjunction of a list; an empty one is false. -/
def any (parts : List Truth) : Truth := parts.foldr or no

/-- Whether a row is taken: only if the condition is true. -/
def holds : Truth → Bool
  | yes => true
  | _ => false

@[simp] theorem all_nil : all [] = yes := rfl
@[simp] theorem all_cons (head : Truth) (rest : List Truth) :
    all (head :: rest) = head.and (all rest) := rfl
@[simp] theorem any_nil : any [] = no := rfl
@[simp] theorem any_cons (head : Truth) (rest : List Truth) :
    any (head :: rest) = head.or (any rest) := rfl

theorem holds_iff {truth : Truth} : truth.holds = true ↔ truth = yes := by
  cases truth <;> simp [holds]

end Truth

end TableAccess
