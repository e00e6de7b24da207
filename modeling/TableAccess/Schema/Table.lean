import TableAccess.Error
import TableAccess.Text.Letters

/-!
# Tables

The description of a table that requests are checked against: its name, its
columns in order, and whether rows have a number of their own. The kind of value
that a column prefers follows from the words in its declared type.
-/

namespace TableAccess

inductive ColumnType where
  | integer
  | real
  | text
  | blob
  | numeric
  deriving DecidableEq, Repr, Inhabited

namespace ColumnType

/-- The kind that a declared type asks for: the first of these word groups that
occurs in it decides, in letters of any case. -/
def ofDeclared (declared : String) : ColumnType :=
  let words := Text.uppercase declared
  let mentions := Text.contains words
  if mentions "INT" then integer
  else if mentions "CHAR" || mentions "CLOB" || mentions "TEXT" then text
  else if words.isEmpty || mentions "BLOB" then blob
  else if mentions "REAL" || mentions "FLOA" || mentions "DOUB" then real
  else numeric

/-- Whether sums and increments make sense on the kind. -/
def isNumeric : ColumnType → Bool
  | integer | real | numeric => true
  | text | blob => false

end ColumnType

structure Column where
  name : String
  declared : String
  nullable : Bool := true
  primaryKey : Bool := false
  deriving DecidableEq, Repr, Inhabited

def Column.type (c : Column) : ColumnType := .ofDeclared c.declared

structure Table where
  name : String
  columns : List Column
  withoutRowid : Bool := false
  deriving DecidableEq, Repr, Inhabited

namespace Table

def hasRowid (t : Table) : Bool := !t.withoutRowid

def column? (t : Table) (name : String) : Option Column :=
  t.columns.find? fun c => c.name == name

def hasColumn (t : Table) (name : String) : Bool := (t.column? name).isSome

def requireColumn (t : Table) (name : String) : Except Error Column :=
  match t.column? name with
  | some c => .ok c
  | none => .error (.unknownColumn t.name name)

def keyColumns (t : Table) : List Column := t.columns.filter (·.primaryKey)

/-- The column that is another name for the row number: the only key column,
declared as an integer in just that word, of a table that numbers its rows. -/
def rowidAlias? (t : Table) : Option Column :=
  if t.withoutRowid then none
  else
    match t.keyColumns with
    | [key] => if Text.uppercase key.declared = "INTEGER" then some key else none
    | _ => none

theorem hasColumn_iff {t : Table} {name : String} :
    t.hasColumn name = true ↔ ∃ c ∈ t.columns, c.name = name := by
  simp [hasColumn, column?, List.find?_isSome]

theorem requireColumn_eq_ok_iff {t : Table} {name : String} {c : Column} :
    t.requireColumn name = .ok c ↔ t.column? name = some c := by
  unfold requireColumn
  cases t.column? name <;> simp

end Table

end TableAccess
