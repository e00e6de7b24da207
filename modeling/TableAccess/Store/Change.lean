import TableAccess.Mutation.BulkUpdate
import TableAccess.Store.Obligation
import TableAccess.Store.Test

/-!
# Changes

Inserting, updating and deleting rows of a database. A statement either takes
effect as a whole or leaves the database as it was: it fails at the first row that
a constraint refuses, and after all rows if an immediate obligation is open.
-/

namespace TableAccess

open Number (Binary64)

namespace Cell

def addend : Cell → Cell
  | text s => NumericText.prefixCell s.toList
  | blob bs => NumericText.prefixCell (NumericText.ofBytes bs)
  | other => other

/-- The sum of two cells: null if one is null, an integer where that does not
overflow, otherwise a real. -/
def plus (first second : Cell) : Cell :=
  match first.addend, second.addend with
  | null, _ => null
  | _, null => null
  | integer m, integer n =>
      let sum := m.toInt + n.toInt
      if Int64.minValue.toInt ≤ sum ∧ sum ≤ Int64.maxValue.toInt then integer (Int64.ofInt sum)
      else ofReal ((Binary64.ofInt64 m).add (.ofInt64 n))
  | a, b =>
      match a.asReal, b.asReal with
      | real x, real y => ofReal (x.add y)
      | _, _ => null

end Cell

def StoredTable.conditionTruth (t : StoredTable) (row : StoredRow) (c : Condition) : Truth :=
  c.test.truth (t.definition.typeOf c.field) (t.cellAt row c.field)

namespace StoredTable

def satisfies (t : StoredTable) (p : Predicate) (row : StoredRow) : Bool :=
  (p.truth (t.conditionTruth row)).holds

/-- A number that no row has, from the middle of the positive ones on. -/
def spareNumber (t : StoredTable) : Int64 :=
  let candidates := (List.range (t.rows.length + 1)).map fun n => Int64.ofNat (Nat.pow 2 61 + n)
  (candidates.find? fun n => t.rows.all fun row => row.number != n).getD 0

/-- The next free row number: one more than the greatest, or a spare one if the greatest
there can be is taken. -/
def nextNumber (t : StoredTable) : Int64 :=
  match t.rows.map (·.number) with
  | [] => 1
  | first :: rest =>
      let greatest := rest.foldl max first
      if greatest = Int64.maxValue then t.spareNumber else greatest + 1

/-- The places of the primary key, if rows stand in its order and not in that of their
numbers. -/
def orderPlaces (t : StoredTable) : Option (List CellPlace) :=
  if t.definition.withoutRowid then some (t.places (t.definition.keyColumns.map (·.name)))
  else none

def precedes (key : Option (List CellPlace)) (first second : StoredRow) : Bool :=
  match key with
  | some places =>
      let orders := places.map fun place => (first.at place).order (second.at place)
      (orders.foldr Ordering.then .eq) == .lt
  | none => first.number < second.number

def insertBy (precedes : StoredRow → StoredRow → Bool) (row : StoredRow) :
    List StoredRow → List StoredRow
  | [] => [row]
  | other :: rest =>
      if precedes row other then row :: other :: rest else other :: insertBy precedes row rest

def placed (t : StoredTable) (row : StoredRow) (others : List StoredRow) : List StoredRow :=
  insertBy (precedes t.orderPlaces) row others

/-- The number that a cell gives to a row; only whole numbers do. -/
def rowNumber (cell : Cell) : Except Fault Int64 :=
  match cell.asNumber.asWhole with
  | .integer n => .ok n
  | _ => .error .datatypeMismatch

/-- What is given for the row number; the last one counts. -/
def givenNumber (t : StoredTable) (given : List (String × Cell)) : Cell :=
  ((given.reverse.find? fun entry => t.definition.namesNumber entry.1).map (·.2)).getD .null

/-- A row with a number, which is shown by the column that stands for it. -/
def numbered (t : StoredTable) (number : Int64) (cells : List Cell) : StoredRow :=
  match t.definition.rowidAlias?.bind t.definition.position? with
  | some position => ⟨number, cells.set position (.integer number)⟩
  | none => ⟨number, cells⟩

/-- The row of given cells by column; of several cells for a column the first one counts,
and what is not given takes the default. -/
def newRow (t : StoredTable) (given : List (String × Cell)) : Except Fault StoredRow := do
  let cellOf (c : StoredColumn) : Cell :=
    c.type.stored
      (((given.find? fun entry => Text.same entry.1 c.name).map (·.2)).getD c.default)
  let asked := t.givenNumber given
  let number ← if asked.isNull then pure t.nextNumber else rowNumber asked
  pure (t.numbered number (t.definition.columns.map cellOf))

def assigned (t : StoredTable) (row : StoredRow) (a : Assignment Cell) : Cell :=
  if a.increment then (t.cellAt row a.column).plus a.operand else a.operand

/-- The row after assignments. All operands see the old row, and the last
assignment to a column counts. -/
def updatedRow (t : StoredTable) (assignments : List (Assignment Cell)) (row : StoredRow) :
    Except Fault StoredRow := do
  let latest := assignments.reverse
  let cellOf (c : StoredColumn) : Cell :=
    match latest.find? fun a => Text.same a.column c.name with
    | some a => c.type.stored (t.assigned row a)
    | none => t.cellAt row c.name
  let number ← match latest.find? fun a => t.definition.namesNumber a.column with
    | some a => rowNumber (t.assigned row a)
    | none => pure row.number
  pure (t.numbered number (t.definition.columns.map cellOf))

end StoredTable

/-- What statements change: the database, and how many rows of the transaction owe a
deferred reference. -/
structure Content where
  database : Database
  owed : Int := 0
  deriving DecidableEq, Repr, Inhabited

abbrev Change : Type → Type := Attempt Content Fault

namespace Change

variable {α : Type}

/-- A change that fails leaves no trace. -/
def whole (change : Change α) : Change α := .of fun before =>
  match change.outcome before with
  | (.ok a, after) => (.ok a, after)
  | (.error fault, _) => (.error fault, before)

def putTable (t : StoredTable) : Change Unit :=
  .changing fun content => { content with database := content.database.replaceTable t }

def target (table : String) : Change StoredTable := .of fun content =>
  (content.database.target table, content)

/-- Adds a row to a table, and tells its number. Obligations that are found before one
that ends the statement stay counted. -/
def insertRow (table : String) (given : List (String × Cell)) : Change Int64 := do
  let t ← target table
  let row ← Attempt.ofExcept (t.newRow given)
  Attempt.ofExcept (t.checkRow row t.rows)
  let db ← Attempt.reading fun (content : Content) => content.database
  ((Concern.ofInsert db t).inserts (.whole db t) row).onPart (·.owed) fun content owed =>
    { content with owed }
  putTable { t with rows := t.placed row t.rows }
  pure row.number

/-- Replaces rows of a table one after the other, and counts obligations. -/
def updateRows (c : Concern) (assignments : List (Assignment Cell)) (table : String) :
    Int → List StoredRow → Change Int
  | immediate, [] => pure immediate
  | immediate, row :: rest => do
      let t ← target table
      let changed ← Attempt.ofExcept (t.updatedRow assignments row)
      let others := t.rows.filter fun other => other.number != row.number
      Attempt.ofExcept (t.checkRow changed others)
      let content ← Attempt.reading fun (content : Content) => content
      let db := content.database
      let owed := c.comes (.replacing db t c others) changed
        (c.leaves (.whole db t) row { immediate, deferred := content.owed })
      Attempt.changing fun (content : Content) => { content with owed := owed.deferred }
      putTable { t with rows := t.placed changed others }
      updateRows c assignments table owed.immediate rest

/-- Takes rows out of a table one after the other, and counts obligations. -/
def deleteRows (c : Concern) (table : String) : Int → List StoredRow → Change Int
  | immediate, [] => pure immediate
  | immediate, row :: rest => do
      let t ← target table
      let content ← Attempt.reading fun (content : Content) => content
      let owed := c.leaves (.whole content.database t) row
        { immediate, deferred := content.owed }
      Attempt.changing fun (content : Content) => { content with owed := owed.deferred }
      putTable { t with rows := t.rows.filter fun other => other.number != row.number }
      deleteRows c table owed.immediate rest

/-- Refuses a statement that leaves immediate obligations. -/
def settled (immediate : Int) : Change Unit :=
  if 0 < immediate then throw .foreignKey else pure ()

/-- Updates the rows of a table that are chosen, one after the other, and tells how many
there were. -/
def updateWhere (table : String) (assignments : List (Assignment Cell))
    (chosen : Database → StoredTable → List StoredRow) : Change Nat := whole do
  let t ← target table
  let db ← Attempt.reading fun (content : Content) => content.database
  let rows := chosen db t
  let concern := Concern.ofUpdate db t (assignments.map (·.column))
  settled (← updateRows concern assignments table 0 rows)
  pure rows.length

/-- Removes the rows of a table that are chosen, and tells how many there were. -/
def deleteWhere (table : String) (chosen : StoredTable → StoredRow → Bool) : Change Nat :=
  whole do
    let t ← target table
    let db ← Attempt.reading fun (content : Content) => content.database
    let rows := t.rows.filter (chosen t)
    settled (← deleteRows (Concern.ofDelete db t) table 0 rows)
    pure rows.length

end Change

end TableAccess
