/-!
# Transaction modes

A transaction takes its locks on first use or takes the write lock at once.
-/

namespace TableAccess

inductive Mode where
  | deferred
  | immediate
  deriving DecidableEq, Repr, Inhabited

def Mode.beginSql : Mode → String
  | .deferred => "BEGIN DEFERRED"
  | .immediate => "BEGIN IMMEDIATE"

end TableAccess
