import TableAccess.Schema.Table
import TableAccess.Store.Affinity

/-!
# Table definitions

What a stored table is created with: columns with their constraints and
defaults, the primary key, and references to other tables. The names of a store
are the same whatever the case of their letters.
-/

namespace TableAccess

/-- A reference of a column to a key column of a table. -/
structure Reference where
  table : String
  column : String
  /-- Whether the reference is checked at the end of the transaction. -/
  deferred : Bool := false
  deriving DecidableEq, Repr

structure StoredColumn where
  name : String
  /-- The declared type as it was written. -/
  declared : String
  notNull : Bool := false
  primaryKey : Bool := false
  /-- Whether the key of this column alone is declared in descending order. -/
  descending : Bool := false
  unique : Bool := false
  default : Cell := .null
  reference : Option Reference := none
  deriving DecidableEq, Repr, Inhabited

structure Definition where
  name : String
  columns : List StoredColumn
  withoutRowid : Bool := false
  deriving DecidableEq, Repr, Inhabited

/-- Where the cell of a named column is found in a row. -/
inductive CellPlace where
  | cell (position : Nat)
  /-- The number of the row. -/
  | number
  deriving DecidableEq, Repr

namespace StoredColumn

/-- Whether a character stands between the words of a statement. -/
def isSeparator (c : Char) : Bool := [' ', '\t', '\n', '\r', '\x0c'].contains c

/-- The declared type without separators at its two ends. -/
def typeName (c : StoredColumn) : String :=
  let trimmed := (c.declared.toList.dropWhile isSeparator).reverse.dropWhile isSeparator
  String.ofList trimmed.reverse

def type (c : StoredColumn) : ColumnType := .ofDeclared c.typeName

/-- Whether the declared type is the word for integers, in letters of any case. -/
def isInteger (c : StoredColumn) : Bool := Text.uppercase c.typeName == "INTEGER"

/-- Declared types that are kept in capital letters, however they were written. -/
def standardTypes : List String := ["ANY", "BLOB", "INT", "INTEGER", "REAL", "TEXT"]

def reportedType (c : StoredColumn) : String :=
  let capital := Text.uppercase c.typeName
  if standardTypes.contains capital then capital else c.typeName

end StoredColumn

namespace Definition

def keyColumns (d : Definition) : List StoredColumn := d.columns.filter (·.primaryKey)

/-- The description of a stored table. Keys of a table that does not number its
rows are never null. -/
def describe (d : Definition) : Table where
  name := d.name
  columns := d.columns.map fun c =>
    { name := c.name
      declared := c.reportedType
      nullable := !(c.notNull || (d.withoutRowid && c.primaryKey))
      primaryKey := c.primaryKey }
  withoutRowid := d.withoutRowid

/-- The name of the column that is another name for the row number: the only key column of a table
that numbers its rows, of integers in just that word and not in descending order. -/
def rowidAlias? (d : Definition) : Option String :=
  if d.withoutRowid then none
  else
    match d.keyColumns with
    | [key] =>
        if key.isInteger && !key.descending then some key.name else none
    | _ => none

def position? (d : Definition) (name : String) : Option Nat :=
  d.columns.findIdx? fun c => Text.same c.name name

/-- The names that a row number answers to where no column has them. -/
def numberNames : List String := ["rowid", "oid", "_rowid_"]

/-- Whether a name stands for the row number, with or without a column for it. -/
def namesNumber (d : Definition) (name : String) : Bool :=
  match d.position? name with
  | some _ => (d.rowidAlias?.map (Text.same name)).getD false
  | none => !d.withoutRowid && numberNames.contains (Text.lowercase name)

/-- Where a named column is found in a row. -/
def place? (d : Definition) (name : String) : Option CellPlace :=
  match d.position? name with
  | some position => some (.cell position)
  | none => if d.namesNumber name then some .number else none

def hasColumn (d : Definition) (name : String) : Bool := (d.place? name).isSome

/-- The kind of a column; a column that is not there has none to prefer. -/
def typeOf (d : Definition) (name : String) : ColumnType :=
  match d.place? name with
  | some (.cell position) => ((d.columns[position]?).map (·.type)).getD .blob
  | some .number => .integer
  | none => .blob

def numberName (d : Definition) : String := d.rowidAlias?.getD "rowid"

def shownName (d : Definition) (name : String) : String :=
  match d.place? name with
  | some (.cell position) => ((d.columns[position]?).map (·.name)).getD name
  | some .number => d.numberName
  | none => name

/-- Whether a column identifies rows by itself through a key that is made where the
column is declared. The key of a table that does not number its rows is made at the
end if it is of integers in ascending order. -/
def declaresKey (d : Definition) (c : StoredColumn) : Bool :=
  c.unique || (c.primaryKey && d.keyColumns.length == 1 && (!c.isInteger || c.descending))

/-- The primary key, if it is made after the columns were declared. -/
def lateKey (d : Definition) : List (List String) :=
  match d.keyColumns with
  | [] => []
  | [c] => if d.withoutRowid && !d.declaresKey c then [[c.name]] else []
  | several => [several.map (·.name)]

/-- The sets of columns that identify a row, besides the row number. The one that is
made last comes first. -/
def uniqueKeys (d : Definition) : List (List String) :=
  (((d.columns.filter d.declaresKey).map fun c => [c.name]) ++ d.lateKey).reverse

def required (d : Definition) (c : StoredColumn) : Bool :=
  c.notNull || (d.withoutRowid && c.primaryKey)

/-- The references of a table with the columns that make them, the last one first. -/
def references (d : Definition) : List (String × Reference) :=
  (d.columns.filterMap fun c => c.reference.map fun r => (c.name, r)).reverse

end Definition

end TableAccess
