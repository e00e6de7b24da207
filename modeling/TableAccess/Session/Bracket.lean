import TableAccess.Error
import TableAccess.Store.Machine

/-!
# Brackets

A bracket runs a body inside a transaction: the transaction is committed if the
body succeeds and undone if it fails. Where a transaction is open already, the
body joins it, and whoever opened it decides.
-/

namespace TableAccess

def Error.ofTransaction (step : String) (fault : Fault) : Error :=
  .transactionFailure s!"Failed to {step} transaction: {fault.message}"

namespace Connection

variable {σ α : Type} [Machine σ]

def begin (c : Nat) (mode : Mode) : Attempt σ Error Unit :=
  (Machine.begin c mode).mapError (Error.ofTransaction "begin")

def commit (c : Nat) : Attempt σ Error Unit :=
  (Machine.commit c).mapError (Error.ofTransaction "commit")

def rollback (c : Nat) : Attempt σ Error Unit :=
  (Machine.rollback c).mapError (Error.ofTransaction "roll back")

/-- Begins a transaction unless one is open, and tells whether it did. -/
def enter (c : Nat) (mode : Mode) : Attempt σ Error Bool := do
  if ← Attempt.reading fun s => Machine.isOpen s c then
    pure false
  else
    begin c mode
    pure true

/-- Undoes an open transaction and reports what went wrong before. -/
def fail (c : Nat) (e : Error) : Attempt σ Error α := do
  let _ : Except Error Unit ← (rollback c).observe
  throw e

/-- Ends a transaction as its body turned out. A transaction that cannot be committed
is undone. -/
def conclude (c : Nat) : Except Error α → Attempt σ Error α
  | .ok a => do
      match ← (commit c).observe with
      | .ok () => pure a
      | .error e => fail c e
  | .error e => fail c e

/-- Leaves a bracket. Only a bracket that began its transaction ends it. -/
def leave (c : Nat) (began : Bool) (outcome : Except Error α) : Attempt σ Error α :=
  if began then conclude c outcome else .ofExcept outcome

def inTransaction (c : Nat) (mode : Mode) (body : Attempt σ Error α) :
    Attempt σ Error α := do
  let began ← enter c mode
  let outcome ← body.observe
  leave c began outcome

end Connection

end TableAccess
