import TableAccess.Sql.Quoted
import TableAccess.Store.Database
import TableAccess.Store.Legible

/-!
# Creation

Tables and views to be created, the statements that create them, and what the store
refuses: names that are taken or reserved, columns of one name, and a table without
columns or without the key that it needs. A view may be created before the table that
it shows.
-/

namespace TableAccess

inductive NewTable where
  | table (definition : Definition)
  | view (view : View)
  deriving DecidableEq, Repr

namespace Sql

def quotedName (name : String) : String := String.ofList (quoted name)

/-- A text as it is written in a statement, with every quote inside it written twice. -/
def literal (s : String) : String :=
  let inside := s.toList.flatMap fun c => if c = '\'' then ['\'', '\''] else [c]
  String.ofList ('\'' :: (inside ++ ['\'']))

end Sql

def Cell.literal : Cell → String
  | null => "NULL"
  | integer n => toString n.toInt
  | real x => String.ofList x.documentText
  | text s => Sql.literal s
  | blob _ => "NULL"

def Reference.text (r : Reference) : String :=
  "REFERENCES " ++ Sql.quotedName r.table ++ "(" ++ Sql.quotedName r.column ++ ")"
    ++ if r.deferred then " DEFERRABLE INITIALLY DEFERRED" else ""

/-- A column in a statement; `keyed` tells whether it is the primary key by itself. -/
def StoredColumn.text (c : StoredColumn) (keyed : Bool) : String :=
  let parts := [Sql.quotedName c.name, c.declared]
    ++ (if keyed && c.primaryKey then
      [if c.descending then "PRIMARY KEY DESC" else "PRIMARY KEY"] else [])
    ++ (if c.notNull then ["NOT NULL"] else [])
    ++ (if c.unique then ["UNIQUE"] else [])
    ++ (if c.default.isNull then [] else ["DEFAULT " ++ c.default.literal])
    ++ (c.reference.map Reference.text).toList
  " ".intercalate parts

def StoredColumn.isLegible (c : StoredColumn) : Bool :=
  !(Sql.hasNul c.name || Sql.hasNul (c.text false))

namespace Definition

def opening (d : Definition) : String := "CREATE TABLE " ++ Sql.quotedName d.name ++ " ("

def text (d : Definition) : String :=
  let key := d.keyColumns.map fun c => Sql.quotedName c.name
  let parts := d.columns.map (·.text (key.length == 1))
    ++ if 1 < key.length then ["PRIMARY KEY (" ++ ", ".intercalate key ++ ")"] else []
  d.opening ++ ", ".intercalate parts ++ ")" ++ if d.withoutRowid then " WITHOUT ROWID" else ""

/-- The columns whose names are read before a statement ends at a NUL. -/
def legibleColumns : List StoredColumn → List StoredColumn
  | [] => []
  | c :: rest =>
      if Sql.hasNul c.name then []
      else c :: if Sql.hasNul (c.text false) then [] else legibleColumns rest

def repeatedColumn? (d : Definition) : Option String :=
  let rec search (earlier : List String) : List StoredColumn → Option String
    | [] => none
    | c :: rest =>
        if earlier.any (Text.same c.name) then some c.name
        else search (c.name :: earlier) rest
  search [] (legibleColumns d.columns)

end Definition

namespace NewTable

def name : NewTable → String
  | table d => d.name
  | view v => v.name

def text : NewTable → String
  | table d => d.text
  | view v => "CREATE VIEW " ++ Sql.quotedName v.name ++ " AS SELECT * FROM "
      ++ Sql.quotedName v.of

/-- The byte of the statement at which the name stands. -/
def namePlace : NewTable → Nat
  | table _ => "CREATE TABLE ".length
  | view _ => "CREATE VIEW ".length

end NewTable

namespace Database

def checkName (db : Database) (new : NewTable) : Except Fault Unit :=
  let taken (kind : String) : Except Fault Unit :=
    .error (.located (.alreadyExists kind (Sql.quotedName new.name)) new.text new.namePlace)
  if (Text.lowercase new.name).startsWith "sqlite_" then .error (.reservedName new.name)
  else if (db.table? new.name).isSome then taken "table"
  else if (db.view? new.name).isSome then taken "view"
  else .ok ()

def checkColumns (d : Definition) : Except Fault Unit :=
  match d.repeatedColumn? with
  | some column => .error (.duplicateColumn column)
  | none => do
      Sql.requireWhole d.text
      unless d.columns.all (·.isLegible) do throw .incomplete
      if d.columns.isEmpty then
        throw (.located (.syntaxError ")") d.text d.opening.utf8ByteSize)
      if d.withoutRowid && d.keyColumns.isEmpty then .error (.primaryKeyMissing d.name)

/-- Creates a table or a view. The name of a table is looked up as soon as it is read, that
of a view at the end. -/
def create (db : Database) (new : NewTable) : Except Fault Database := do
  match new with
  | .table d => do
      if Sql.hasNul d.name then Sql.requireWhole d.text
      db.checkName new
      checkColumns d
      pure { db with tables := db.tables ++ [⟨d, []⟩] }
  | .view v => do
      Sql.requireWhole new.text
      db.checkName new
      pure { db with views := db.views ++ [v] }

end Database

end TableAccess
