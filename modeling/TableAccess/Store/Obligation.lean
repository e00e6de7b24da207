import TableAccess.Attempt
import TableAccess.Sql.Quoted
import TableAccess.Store.Constraint

/-!
# Obligations

A row may refer to a key of another table, or of its own. A store counts the rows whose
key is not there: the immediate ones of a statement have to be gone at its end, the
deferred ones of a transaction at its commit. The counts follow each row that comes or
goes, as a row that refers and as a row that is referred to, so that the whole database
is never searched.
-/

namespace TableAccess

inductive ParentKey where
  /-- The row number. -/
  | number
  | column (name : String)
  deriving DecidableEq, Repr

structure Link where
  child : StoredTable
  column : String
  reference : Reference
  deriving DecidableEq, Repr

structure Owed where
  immediate : Int := 0
  deferred : Int := 0
  deriving DecidableEq, Repr, Inhabited

namespace Owed

def count (o : Owed) (deferred : Bool) : Int := if deferred then o.deferred else o.immediate

def add (o : Owed) (deferred : Bool) (change : Int) : Owed :=
  if deferred then { o with deferred := o.deferred + change }
  else { o with immediate := o.immediate + change }

end Owed

def Definition.parentKey? (d : Definition) (column : String) : Option ParentKey :=
  if (d.rowidAlias?.map (Text.same column)).getD false then some .number
  else
    (d.columns.find? fun c => Text.same c.name column && d.uniqueKeys.contains [c.name]).map
      fun c => .column c.name

namespace Link

def isOwn (l : Link) : Bool := Text.same l.reference.table l.child.name

def mismatch (l : Link) : Fault :=
  let written (name : String) : String := String.ofList (Sql.doubleQuotes name.toList)
  .foreignKeyMismatch (written l.child.name) (written l.reference.table)

def keyIn (l : Link) (parent : StoredTable) : Except Fault ParentKey :=
  match parent.definition.parentKey? l.reference.column with
  | some key => .ok key
  | none => .error l.mismatch

end Link

def StoredTable.links (t : StoredTable) : List Link :=
  t.definition.references.map fun (column, reference) => ⟨t, column, reference⟩

namespace Database

/-- The references that are made to a table: those of the newest table first. -/
def linksTo (db : Database) (t : StoredTable) : List Link :=
  (db.tables.reverse.flatMap (·.links)).filter fun l => Text.same l.reference.table t.name

def parentOf (db : Database) (l : Link) : Except Fault (StoredTable × ParentKey) :=
  match db.table? l.reference.table with
  | some parent => do pure (parent, ← l.keyIn parent)
  | none =>
      if (db.view? l.reference.table).isSome then .error l.mismatch
      else .error (.noSuchTable s!"main.{l.reference.table}")

end Database

structure Concern where
  outgoing : List Link := []
  incoming : List Link := []
  /-- The columns that the statement assigns. -/
  assigned : List String := []
  /-- Whether a row is taken out before the one that replaces it is checked. -/
  takesOut : Bool := false

namespace Concern

/-- The concern of an insert. New rows can only settle obligations of others, which
matters for deferred ones. -/
def ofInsert (db : Database) (t : StoredTable) : Concern where
  outgoing := t.links
  incoming := (db.linksTo t).filter (·.reference.deferred)

def ofDelete (db : Database) (t : StoredTable) : Concern where
  outgoing := t.links
  incoming := db.linksTo t

def changes (t : StoredTable) (assigned : List String) (column : String) : Bool :=
  let d := t.definition
  assigned.any fun other =>
    Text.same other column || (d.namesNumber other && d.namesNumber column)

/-- The concern of an update of some columns: nothing at all, unless it touches a column
that refers or is referred to. If it does, the references within the table come in too. -/
def ofUpdate (db : Database) (t : StoredTable) (assigned : List String) : Concern :=
  let d := t.definition
  let changed := t.links.filter fun l => changes t assigned l.column
  let arriving := (db.linksTo t).filter fun l =>
    (d.position? l.reference.column).isSome && changes t assigned l.reference.column
  if changed.isEmpty && arriving.isEmpty then {}
  else
    { outgoing := t.links.filter fun l => l.isOwn || changes t assigned l.column
      incoming := arriving
      assigned
      takesOut := changed.any Link.isOwn || assigned.any d.namesNumber
        || d.keyColumns.any fun c => d.withoutRowid && changes t assigned c.name }

def isEmpty (c : Concern) : Bool := c.outgoing.isEmpty && c.incoming.isEmpty

/-- Refuses references that point to nothing or to what is no key. -/
def check (c : Concern) (db : Database) (t : StoredTable) : Except Fault Unit := do
  c.outgoing.forM fun l => do
    let _ ← db.parentOf l
  c.incoming.forM fun l => do
    let _ ← l.keyIn t

/-- Refuses what `check` refuses, and after that every reference to the table that points
to no key, the last one first. -/
def checkAll (c : Concern) (db : Database) (t : StoredTable) : Except Fault Unit := do
  c.check db t
  unless c.isEmpty do
    (db.linksTo t).reverse.forM fun l => do
      let _ ← l.keyIn t

end Concern

namespace Link

def cellOf (l : Link) (row : StoredRow) : Cell := l.child.cellAt row l.column

/-- A cell as it is looked up in a key column. -/
def lookedUp (type : ColumnType) (cell : Cell) : Cell :=
  if type.isNumeric then cell.asNumber else if type = .text then cell.asText else cell

def keyCell (parent : StoredTable) (key : ParentKey) (row : StoredRow) : Cell :=
  match key with
  | .number => .integer row.number
  | .column name => parent.cellAt row name

/-- The cell with which a row refers, as it is looked up in the other table. -/
def wanted (l : Link) (parent : StoredTable) (key : ParentKey) (row : StoredRow) : Cell :=
  match key with
  | .number => (l.cellOf row).asNumber.asWhole
  | .column name => lookedUp (parent.definition.typeOf name) (l.cellOf row)

/-- Whether a row refers to itself. The cells of two columns are compared as they are. -/
def refersToItself (l : Link) (key : ParentKey) (row : StoredRow) : Bool :=
  let own := keyCell l.child key row
  match key with
  | .number => (l.wanted l.child key row).same own
  | .column _ => !own.isNull && (l.cellOf row).same own

/-- The number of rows that refer to the key of a row. -/
def referring (l : Link) (parent : StoredTable) (key : ParentKey) (row : StoredRow)
    (children : List StoredRow) : Nat :=
  let own := keyCell parent key row
  let type := match key with
    | .number => .integer
    | .column name => parent.definition.typeOf name
  (children.filter fun child =>
    let cell := l.cellOf child
    let (a, b) := ColumnType.comparablePair type (l.child.definition.typeOf l.column) own cell
    !own.isNull && !cell.isNull && a.same b).length

end Link

/-- The rows among which the references of one row are followed. -/
structure Scene where
  database : Database
  /-- The table of the row. -/
  table : StoredTable
  /-- The rows of that table among which a key is looked up. -/
  keyed : ParentKey → List StoredRow
  /-- The rows of that table that may refer to the row. -/
  referring : List StoredRow

namespace Scene

/-- The scene of a row that is to be inserted or is about to leave. -/
def whole (db : Database) (t : StoredTable) : Scene := ⟨db, t, fun _ => t.rows, t.rows⟩

/-- The scene of a row that replaces another one of the table. A row that was not taken out
can still be found by the keys that do not change. -/
def replacing (db : Database) (t : StoredTable) (c : Concern) (others : List StoredRow) :
    Scene where
  database := db
  table := t
  keyed := fun key =>
    let changed := match key with
      | .number => false
      | .column name => Concern.changes t c.assigned name
    if c.takesOut || changed then others else t.rows
  referring := if c.takesOut then others else t.rows

def finds (s : Scene) (l : Link) (parent : StoredTable) (key : ParentKey) (row : StoredRow) :
    Bool :=
  let rows := if l.isOwn then s.keyed key else parent.rows
  let wanted := l.wanted parent key row
  rows.any fun other => wanted.same (Link.keyCell parent key other)

def children (s : Scene) (l : Link) : List StoredRow :=
  if l.isOwn then s.referring
  else ((s.database.table? l.child.name).map (·.rows)).getD []

def dangles (s : Scene) (l : Link) (row : StoredRow) : Bool :=
  match s.database.parentOf l with
  | .ok (parent, key) => !(l.cellOf row).isNull && !s.finds l parent key row
  | .error _ => false

/-- Whether a new row refers to a key that is not there, not even in itself. -/
def opens (s : Scene) (l : Link) (row : StoredRow) : Bool :=
  match s.database.parentOf l with
  | .ok (_, key) => s.dangles l row && !(l.isOwn && l.refersToItself key row)
  | .error _ => false

/-- The number of rows, given ones left out, that refer to a row. -/
def dependents (s : Scene) (l : Link) (row : StoredRow) (counts : StoredRow → Bool) : Nat :=
  match l.keyIn s.table with
  | .ok key => l.referring s.table key row ((s.children l).filter counts)
  | .error _ => 0

end Scene

namespace Concern

/-- The counts after a row was found to leave: an obligation of the row itself is gone, and
one arises for each other row that refers to it. -/
def leaves (c : Concern) (s : Scene) (row : StoredRow) (owed : Owed) : Owed :=
  let settled := c.outgoing.foldl (fun o l =>
    let deferred := l.reference.deferred
    if o.count deferred ≠ 0 ∧ s.dangles l row = true then o.add deferred (-1) else o) owed
  c.incoming.foldl (fun o l =>
    let counts (child : StoredRow) : Bool := !(l.isOwn && child.number == row.number)
    o.add l.reference.deferred (s.dependents l row counts)) settled

/-- The counts after the keys of a new row have settled obligations of others. -/
def settles (c : Concern) (s : Scene) (row : StoredRow) (owed : Owed) : Owed :=
  c.incoming.foldl (fun o l =>
    let deferred := l.reference.deferred
    if o.count deferred = 0 then o
    else o.add deferred (-(s.dependents l row fun _ => true : Int))) owed

/-- The counts after a new row was found to come. -/
def comes (c : Concern) (s : Scene) (row : StoredRow) (owed : Owed) : Owed :=
  c.settles s row
    (c.outgoing.foldl (fun o l => if s.opens l row then o.add l.reference.deferred 1 else o)
      owed)

/-- Follows the references of a row that is to be inserted. An immediate reference without
its key ends the statement at once. -/
def inserts (c : Concern) (s : Scene) (row : StoredRow) : Attempt Int Fault Unit := do
  c.outgoing.forM fun l =>
    if s.opens l row then
      if l.reference.deferred then Attempt.changing (· + 1) else throw .foreignKey
    else pure ()
  Attempt.changing fun deferred => (c.settles s row { deferred }).deferred

end Concern

end TableAccess
