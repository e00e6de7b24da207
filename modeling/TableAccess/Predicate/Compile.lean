import TableAccess.Filter.Key
import TableAccess.Predicate.Basic

/-!
# Compiling filters

A filter is turned into a predicate on the columns of one table. Every key and
every form is checked on the way, so that a malformed filter fails before there
is a statement, and the error is that of the first entry that is wrong.
-/

namespace TableAccess

/-- The refusal of a right-hand side of the wrong form. -/
def wrongShape (key : String) (expected : Shape) (given : FilterValue) : Error :=
  .invalidRequest
    (s!"'{key}' expects a " ++ expected.label ++ " value, got a " ++ given.shape.label)

/-- The refusal of a group member without a condition, which would turn the whole
group into all rows. -/
def vacuousMember : Error :=
  .invalidRequest s!"'{orKey}' members must contain at least one condition"

namespace Table

/-- Compiles an entry that is not a group. Membership in an empty list is settled
at once. -/
def compileEntry (t : Table) (key : String) (given : FilterValue) :
    Except Error Predicate := do
  let (field, op) ← t.parseKey key
  match op.takesList, given with
  | true, .list [] => pure (.const (op == .notIn))
  | true, .list vs => pure (.condition ⟨t.name, field, op, .list vs⟩)
  | false, .scalar v => pure (.condition ⟨t.name, field, op, .value v⟩)
  | true, other => throw (wrongShape key .list other)
  | false, other => throw (wrongShape key .scalar other)

mutual

/-- Compiles a filter: the conjunction of its entries. -/
def compile (t : Table) : Filter → Except Error Predicate
  | .entries list => do pure (.conj (← compileEntries t list))

def compileEntries (t : Table) :
    List (String × FilterValue) → Except Error (List Predicate)
  | [] => pure []
  | (key, given) :: rest => do
      let part ← compileValue t key given
      pure (part :: (← compileEntries t rest))

def compileValue (t : Table) (key : String) : FilterValue → Except Error Predicate
  | .group members =>
      if key = orKey then do pure (.disj (← compileMembers t members))
      else t.compileEntry key (.group members)
  | .scalar v =>
      if key = orKey then throw (wrongShape orKey .group (.scalar v))
      else t.compileEntry key (.scalar v)
  | .list vs =>
      if key = orKey then throw (wrongShape orKey .group (.list vs))
      else t.compileEntry key (.list vs)

/-- Compiles the members of a group; each has to restrict something. -/
def compileMembers (t : Table) : List Filter → Except Error (List Predicate)
  | [] => pure []
  | member :: rest => do
      let part ← compile t member
      if part.isUnrestricted then throw vacuousMember
      pure (part :: (← compileMembers t rest))

end

end Table

end TableAccess
