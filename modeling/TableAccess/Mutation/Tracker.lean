import TableAccess.Error

/-!
# Trackers

A change of a table goes through phases, of which the two last ones are final. A
tracker follows one change through them. It passes on the outcomes that it is
told, and refuses a step that the phases do not allow.
-/

namespace TableAccess

inductive Phase where
  | pending
  | compiling
  | executing
  | committed
  | rolledBack
  deriving DecidableEq, Repr

namespace Phase

def label : Phase → String
  | pending => "pending"
  | compiling => "compiling"
  | executing => "executing"
  | committed => "committed"
  | rolledBack => "rolled_back"

def canAdvance : Phase → Phase → Bool
  | pending, compiling => true
  | compiling, executing => true
  | compiling, rolledBack => true
  | executing, committed => true
  | executing, rolledBack => true
  | _, _ => false

def isTerminal : Phase → Bool
  | committed | rolledBack => true
  | _ => false

theorem canAdvance_of_isTerminal {phase next : Phase} (final : phase.isTerminal = true) :
    phase.canAdvance next = false := by
  cases phase <;> cases next <;> simp_all [isTerminal, canAdvance]

end Phase

structure Tracker where
  table : String
  operation : Operation
  phase : Phase
  deriving DecidableEq, Repr

namespace Tracker

def new (table : String) (operation : Operation) : Tracker := ⟨table, operation, .pending⟩

def start (table : String) (operation : Operation) : Tracker := ⟨table, operation, .compiling⟩

def illegalStep (t : Tracker) (next : Phase) : Error :=
  .transactionFailure
    (t.operation.label ++ s!" on '{t.table}' cannot move from " ++ t.phase.label ++ " to "
      ++ next.label)

/-- Goes on to a phase, or stays and reports the refusal. -/
def advance (t : Tracker) (next : Phase) : Except Error Unit × Tracker :=
  if t.phase.canAdvance next then (.ok (), { t with phase := next })
  else (.error (t.illegalStep next), t)

/-- Ends in a phase where the step is allowed; an error goes through unchanged. -/
private def settle {α : Type} (t : Tracker) (success : Phase) (outcome : Except Error α) :
    Except Error α × Tracker :=
  match outcome with
  | .ok a =>
      match t.advance success with
      | (.ok (), next) => (.ok a, next)
      | (.error e, same) => (.error e, same)
  | .error e => (.error e, (t.advance .rolledBack).2)

/-- Records the outcome of compilation: execution comes next, or nothing more. -/
def compiled {α : Type} (t : Tracker) (outcome : Except Error α) : Except Error α × Tracker :=
  t.settle .executing outcome

def finish {α : Type} (t : Tracker) (outcome : Except Error α) : Except Error α × Tracker :=
  t.settle .committed outcome

/-- A success tries a step, and is handed back if that is taken. -/
private theorem settle_ok {α : Type} (t : Tracker) (success : Phase) (a : α) :
    t.settle success (.ok a) = ((t.advance success).1.map fun _ => a, (t.advance success).2) := by
  unfold settle
  obtain ⟨result, after⟩ := t.advance success
  cases result <;> rfl

theorem compiled_ok {α : Type} (t : Tracker) (a : α) :
    t.compiled (.ok a) = ((t.advance .executing).1.map fun _ => a, (t.advance .executing).2) :=
  settle_ok t .executing a

theorem finish_ok {α : Type} (t : Tracker) (a : α) :
    t.finish (.ok a) = ((t.advance .committed).1.map fun _ => a, (t.advance .committed).2) :=
  settle_ok t .committed a

end Tracker

end TableAccess
