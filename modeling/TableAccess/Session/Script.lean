import TableAccess.Session.Serving

/-!
# Scripts

A script is a list of steps for a handle, run one after the other with every
outcome kept. A step may open a scope with steps of its own; unless it is told to
keep going, a scope ends with its first failing step.
-/

namespace TableAccess

structure ScopeOptions where
  /-- Whether failing steps are passed over. -/
  keepGoing : Bool := false
  /-- Whether the caller goes away before the scope ends. -/
  cancelled : Bool := false
  deriving DecidableEq, Repr

mutual

inductive Step where
  | request (request : Request)
  /-- Replaces the snapshot in force, and tells the generation. -/
  | reload
  | stats
  | check
  | scope (mode : Mode) (options : ScopeOptions) (steps : List ScopeStep)

inductive ScopeStep where
  | request (request : Request)
  /-- A step on the handle while the scope is open. -/
  | outer (step : Step)

end

inductive ScopeEnd where
  | finished (result : Except Error Unit)
  | cancelled

inductive Answer where
  | reply (outcome : Except Error Reply)
  | reloaded (outcome : Except Error Nat)
  | stats (counts : Pool.Stats)
  | alive (yes : Bool)
  | scope (steps : List Answer) (result : ScopeEnd)

namespace Answer

/-- The failure of a step. A failure within a scope or a reload is the business of
that scope or reload. -/
def failure? : Answer → Option Error
  | reply (.error e) => some e
  | _ => none

end Answer

def ScopeOptions.failureOf (options : ScopeOptions) (answer : Answer) : Option Error :=
  if options.keepGoing then none else answer.failure?

section Machine

variable {σ : Type} [Machine σ]

mutual

def Step.run (h : Handle σ) : Step → Answer × Handle σ
  | .request asked =>
      let (outcome, next) := asked.onHandle.outcome h
      (.reply outcome, next)
  | .reload =>
      let (outcome, next) := Handle.reload.outcome h
      (.reloaded (outcome.map fun _ => next.catalog.generation), next)
  | .stats => (.stats h.stats, h)
  | .check =>
      match Handle.isAlive.outcome h with
      | (.ok yes, next) => (.alive yes, next)
      | (.error _, next) => (.alive false, next)
  | .scope mode options steps =>
      match (Handle.enterScope mode).outcome h with
      | (.error e, next) => (.scope [] (.finished (.error e)), next)
      | (.ok opened, entered) =>
          let (answers, outcome, worked) :=
            ScopeStep.runAll opened options entered steps
          if options.cancelled then (.scope answers .cancelled, worked.abandonScope opened)
          else
            let (result, left) := (Handle.leaveScope opened outcome).outcome worked
            (.scope answers (.finished result), left)

def ScopeStep.run (scope : Scope) (h : Handle σ) : ScopeStep → Answer × Handle σ
  | .request asked =>
      let (outcome, next) := (scope.serve asked).outcome h
      (.reply outcome, next)
  | .outer step => step.run h

def ScopeStep.runAll (scope : Scope) (options : ScopeOptions) (h : Handle σ) :
    List ScopeStep → List Answer × Except Error Unit × Handle σ
  | [] => ([], .ok (), h)
  | step :: rest =>
      let (answer, next) := step.run scope h
      match options.failureOf answer with
      | some e => ([answer], .error e, next)
      | none =>
          let (answers, outcome, last) := ScopeStep.runAll scope options next rest
          (answer :: answers, outcome, last)

end

def Handle.runScript (h : Handle σ) : List Step → List Answer × Handle σ
  | [] => ([], h)
  | step :: rest =>
      let (answer, next) := step.run h
      let (answers, last) := next.runScript rest
      (answer :: answers, last)

end Machine

namespace Handle

def createAll : List NewTable → Attempt Handle Error Unit
  | [] => pure ()
  | new :: rest => do
      let _ ← create new
      createAll rest

/-- Opens a handle on a fresh store and creates its tables. A handle without a catalog
discovers what the store holds, once before the tables are there and once after. -/
def start (engine : Engine) (settings : Settings) (catalog : Option Catalog)
    (tables : List NewTable) : Except Error Handle := do
  let h ← match catalog with
    | some given => openWith engine settings given
    | none => connect engine settings
  let preparation : Attempt Handle Error Unit := do
    createAll tables
    if catalog.isNone then reload
  match preparation.outcome h with
  | (.ok (), ready) => pure ready
  | (.error e, _) => throw e

end Handle

end TableAccess
