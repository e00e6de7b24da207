import TableAccess.Fault

/-!
# Errors

Every failure that a request can end in, by its cause, and the wording shown to
callers. Errors that are found while a request is compiled are told apart from
those that a store or a pool raises.
-/

namespace TableAccess

inductive Operation where
  | insert
  | update
  | delete
  | bulkUpdate
  deriving DecidableEq, Repr

def Operation.label : Operation → String
  | insert => "insert"
  | update => "update"
  | delete => "delete"
  | bulkUpdate => "bulk update"

inductive Error where
  /-- The catalog has no such table. -/
  | unknownTable (table : String)
  /-- The table has no such column. -/
  | unknownColumn (table column : String)
  /-- The operator does not exist or does not fit the field. -/
  | unsupportedOperator (field operator : String)
  /-- The aggregate function does not exist or does not fit the column. -/
  | unsupportedAggregate (label function : String)
  /-- A change without a condition would reach every row. -/
  | missingCondition (table : String) (operation : Operation)
  /-- The stored data would break a constraint. -/
  | constraintViolation (table message : String)
  /-- The store failed; the fault is kept if the store reported one. -/
  | executionFailure (table message : String) (source : Option Fault)
  /-- The request does not have the right form. -/
  | invalidRequest (message : String)
  /-- A row has no column of the name. -/
  | columnNotFound (column : String)
  | connectionFailure (message : String)
  | connectionTimeout (milliseconds : Nat)
  /-- Every connection of the pool is in use. -/
  | poolExhausted (active max : Nat)
  | queryTimeout (milliseconds : Nat)
  | transactionFailure (message : String)
  | other (message : String)
  deriving DecidableEq, Repr

namespace Error

def message : Error → String
  | unknownTable table => s!"Unknown table: {table}"
  | unknownColumn table column => s!"Unknown column '{column}' in table '{table}'"
  | unsupportedOperator field operator =>
      s!"Unsupported operator '{operator}' on field '{field}'"
  | unsupportedAggregate label function =>
      s!"Unsupported aggregate function '{function}' for alias '{label}'"
  | missingCondition table operation =>
      operation.label ++ s!" on '{table}' requires at least one condition"
  | constraintViolation table message => s!"Constraint violation on '{table}': {message}"
  | executionFailure table message _ => s!"Execution failed on '{table}': {message}"
  | invalidRequest message => s!"Invalid request: {message}"
  | columnNotFound column => s!"Column not found: {column}"
  | connectionFailure message => s!"Connection error: {message}"
  | connectionTimeout milliseconds => s!"Connection timeout after {milliseconds}ms"
  | poolExhausted active max =>
      s!"Connection pool exhausted: {active}/{max} connections in use"
  | queryTimeout milliseconds => s!"Query timeout after {milliseconds}ms"
  | transactionFailure message => s!"Transaction error: {message}"
  | other message => message

/-- Whether the error was found before any statement was run. -/
def isCompileError : Error → Bool
  | unknownTable .. | unknownColumn .. | unsupportedOperator .. | unsupportedAggregate ..
  | missingCondition .. | invalidRequest .. => true
  | _ => false

def hasSource : Error → Bool
  | executionFailure _ _ (some _) => true
  | _ => false

def ofFault (table : String) (fault : Fault) : Error :=
  if fault.isConstraint then constraintViolation table fault.message
  else executionFailure table fault.message (some fault)

theorem isCompileError_ofFault (table : String) (fault : Fault) :
    (ofFault table fault).isCompileError = false := by
  unfold ofFault
  split <;> rfl

end Error

end TableAccess
