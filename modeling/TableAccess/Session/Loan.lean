import TableAccess.Session.Script

/-!
# Loans

A caller may also borrow connections one by one and work on each as it likes. The
loans are numbered in the order in which they were made.
-/

namespace TableAccess

inductive LoanRequest where
  | begin (mode : Mode)
  | commit
  | rollback
  | ping
  /-- The tables that the store holds. -/
  | discover
  | create (new : NewTable)
  /-- Adds rows, each of them a statement of its own. -/
  | insert (table : String) (rows : NewRows)
  | dump (table : String)
  /-- A request that failed before it was made. -/
  | fail (error : Error)

inductive LoanStep where
  | lend
  | giveBack (slot : Nat)
  | stats
  | request (slot : Nat) (request : LoanRequest)
  /-- Steps in a bracket on one connection. -/
  | bracket (slot : Nat) (mode : Mode) (options : ScopeOptions) (steps : List LoanStep)

/-- A handle with the connections that were lent from it; a loan that was given back
keeps its number. -/
structure Loans where
  handle : Handle
  slots : List (Option Nat) := []

namespace LoanRequest

variable {σ : Type} [Machine σ]

def onConnection (c : Nat) : LoanRequest → Attempt σ Error Reply
  | begin mode => do
      Connection.begin c mode
      pure .done
  | commit => do
      Connection.commit c
      pure .done
  | rollback => do
      Connection.rollback c
      pure .done
  | ping => do
      Connection.ping c
      pure .done
  | discover => do pure (.tables (← Connection.discover c).tables.values)
  | create new => do pure (.changed (← Connection.create c new))
  | insert table rows => do
      let snapshot ← Connection.discover c
      let i ← Attempt.ofExcept (Insert.compile snapshot table rows)
      pure (.inserted (← Connection.insertRows c i))
  | dump table => do pure (.rows (← Connection.dump c table))
  | fail e => throw e

end LoanRequest

namespace Loans

variable {α : Type}

/-- Opens a handle of which nothing is lent yet. -/
def start (settings : Settings) : Except Error Loans := do
  pure { handle := ← Handle.openWith .blocking settings default }

def onHandle (a : Attempt Handle Error α) : Attempt Loans Error α :=
  a.onPart (·.handle) fun loans handle => { loans with handle }

def connection (slot : Nat) : Attempt Loans Error Nat := .of fun loans =>
  match loans.slots[slot]? with
  | some (some c) => (.ok c, loans)
  | _ => (.error (.connectionFailure s!"connection {slot} is not lent"), loans)

def lend : Attempt Loans Error Nat := do
  let c ← onHandle Handle.acquire
  let slot ← Attempt.reading fun (loans : Loans) => loans.slots.length
  Attempt.changing fun loans => { loans with slots := loans.slots ++ [some c] }
  pure slot

def giveBack (slot : Nat) : Attempt Loans Error Unit := do
  let c ← connection slot
  Attempt.changing fun loans =>
    { handle := loans.handle.release c, slots := loans.slots.set slot none }

def serve (slot : Nat) (request : LoanRequest) : Attempt Loans Error Reply := do
  let c ← connection slot
  onHandle (Handle.onStore (request.onConnection c))

/-- Enters a bracket on a loan, and tells whether a transaction was begun. -/
def enter (slot : Nat) (mode : Mode) : Attempt Loans Error Bool := do
  let c ← connection slot
  onHandle (Handle.onStore (Connection.enter c mode))

def leave (slot : Nat) (began : Bool) (outcome : Except Error α) : Attempt Loans Error α := do
  let c ← connection slot
  onHandle (Handle.onStore (Connection.leave c began outcome))

end Loans

mutual

def LoanStep.run (loans : Loans) : LoanStep → Answer × Loans
  | .lend =>
      let (outcome, next) := Loans.lend.outcome loans
      (.reply (outcome.map .lent), next)
  | .giveBack slot =>
      let (outcome, next) := (Loans.giveBack slot).outcome loans
      (.reply (outcome.map fun _ => .done), next)
  | .stats => (.stats loans.handle.stats, loans)
  | .request slot asked =>
      let (outcome, next) := (Loans.serve slot asked).outcome loans
      (.reply outcome, next)
  | .bracket slot mode options steps =>
      match (Loans.enter slot mode).outcome loans with
      | (.error e, next) => (.scope [] (.finished (.error e)), next)
      | (.ok began, entered) =>
          let (answers, outcome, worked) := LoanStep.runAll options entered steps
          let (result, left) := (Loans.leave slot began outcome).outcome worked
          (.scope answers (.finished result), left)

/-- Runs the steps of a bracket, and tells how the bracket turned out. -/
def LoanStep.runAll (options : ScopeOptions) (loans : Loans) :
    List LoanStep → List Answer × Except Error Unit × Loans
  | [] => ([], .ok (), loans)
  | step :: rest =>
      let (answer, next) := step.run loans
      match options.failureOf answer with
      | some e => ([answer], .error e, next)
      | none =>
          let (answers, outcome, last) := LoanStep.runAll options next rest
          (answer :: answers, outcome, last)

end

def Loans.runScript (loans : Loans) (steps : List LoanStep) : List Answer :=
  (LoanStep.runAll { keepGoing := true } loans steps).1

end TableAccess
