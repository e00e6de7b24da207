/-!
# Faults of a store

What can go wrong while a store is opened, runs a statement or ends a transaction,
with the wording of each. Violated constraints are told apart from the rest. A fault
that a store finds while it reads a statement tells where it stands.
-/

namespace TableAccess

inductive Fault where
  | noSuchTable (table : String)
  | noSuchColumn (column : String)
  /-- An inserted column that the table does not have. -/
  | noColumnNamed (table column : String)
  /-- A column reference that several tables of a query answer. -/
  | ambiguousColumn (table column : String)
  | alreadyExists (kind name : String)
  /-- A new table whose name the store keeps for itself. -/
  | reservedName (name : String)
  | duplicateColumn (column : String)
  /-- A statement that cannot be read on at some text. -/
  | syntaxError (near : String)
  /-- A statement that ends within a quoted piece. -/
  | unfinished (piece : String)
  /-- A statement that ends before it is complete. -/
  | incomplete
  /-- Conditions that are nested deeper than a store can read. -/
  | tooDeep (greatest : Nat)
  /-- A table that is to identify its rows by a key it does not have. -/
  | primaryKeyMissing (table : String)
  /-- A view that is defined by itself. -/
  | circularView (view : String)
  | viewNotModifiable (view : String)
  /-- A reference to columns that are not a key of the other table. -/
  | foreignKeyMismatch (child parent : String)
  /-- A lock of another connection is in the way, on one table or on all. -/
  | locked (table : Option String)
  /-- Another connection is changing the set of tables. -/
  | schemaLocked
  | datatypeMismatch
  | integerOverflow
  /-- A row without a cell at a position. -/
  | invalidColumnIndex (position : Nat)
  | notNull (table column : String)
  | unique (table : String) (columns : List String)
  | foreignKey
  | transactionWithinTransaction
  | noTransactionToCommit
  | cannotOpen (location : String)
  /-- A location with an option that has no such value. -/
  | noSuchOption (kind value : String)
  /-- A location on another machine. -/
  | invalidAuthority (authority : String)
  /-- A fault at a byte of the statement in which it was found. -/
  | located (fault : Fault) (sql : String) (offset : Nat)
  deriving DecidableEq, Repr

namespace Fault

def isConstraint : Fault → Bool
  | notNull .. | unique .. | foreignKey => true
  | _ => false

def message : Fault → String
  | noSuchTable table => s!"no such table: {table}"
  | noSuchColumn column => s!"no such column: {column}"
  | noColumnNamed table column => s!"table {table} has no column named {column}"
  | ambiguousColumn table column => s!"ambiguous column name: {table}.{column}"
  | alreadyExists kind name => s!"{kind} {name} already exists"
  | reservedName name => s!"object name reserved for internal use: {name}"
  | duplicateColumn column => s!"duplicate column name: {column}"
  | syntaxError near => s!"near \"{near}\": syntax error"
  | unfinished piece => s!"unrecognized token: \"{piece}\""
  | incomplete => "incomplete input"
  | tooDeep greatest => s!"Expression tree is too large (maximum depth {greatest})"
  | primaryKeyMissing table => s!"PRIMARY KEY missing on table {table}"
  | circularView view => s!"view {view} is circularly defined"
  | viewNotModifiable view => s!"cannot modify {view} because it is a view"
  | foreignKeyMismatch child parent =>
      s!"foreign key mismatch - \"{child}\" referencing \"{parent}\""
  | locked none => "database table is locked"
  | locked (some table) => s!"database table is locked: {table}"
  | schemaLocked => "database schema is locked: main"
  | datatypeMismatch => "datatype mismatch"
  | integerOverflow => "integer overflow"
  | invalidColumnIndex position => s!"Invalid column index: {position}"
  | notNull table column => s!"NOT NULL constraint failed: {table}.{column}"
  | unique table columns =>
      "UNIQUE constraint failed: "
        ++ ", ".intercalate (columns.map fun column => s!"{table}.{column}")
  | foreignKey => "FOREIGN KEY constraint failed"
  | transactionWithinTransaction => "cannot start a transaction within a transaction"
  | noTransactionToCommit => "cannot commit - no transaction is active"
  | cannotOpen location => s!"unable to open database file: {location}"
  | noSuchOption kind value => s!"no such {kind}: {value}"
  | invalidAuthority authority => s!"invalid uri authority: {authority}"
  | located fault sql offset => s!"{fault.message} in {sql} at offset {offset}"

/-- The fault without the statement in which it was found. -/
def bare : Fault → Fault
  | located fault _ _ => fault.bare
  | fault => fault

end Fault

end TableAccess
