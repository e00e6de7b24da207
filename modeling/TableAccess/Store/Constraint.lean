import TableAccess.Fault
import TableAccess.Store.Database

/-!
# Constraints

What the rows of a table have to satisfy by themselves: columns that must be given,
and keys that identify rows.
-/

namespace TableAccess

namespace StoredTable

/-- Whether two rows agree at the places of a key. Nulls never agree. -/
def collides (key : List CellPlace) (first second : StoredRow) : Bool :=
  key.all fun place =>
    let a := first.at place
    let b := second.at place
    !a.isNull && !b.isNull && a.same b

/-- The first required column that a row leaves null. -/
def missingColumn? (t : StoredTable) (row : StoredRow) : Option String :=
  ((t.definition.columns.zip row.cells).find? fun (c, cell) =>
    t.definition.required c && cell.isNull).map (·.1.name)

def numberTaken (row : StoredRow) (others : List StoredRow) : Bool :=
  others.any fun other => other.number == row.number

/-- The first key in which a row agrees with one of the others. The row number is such a
key. -/
def collision? (t : StoredTable) (row : StoredRow) (others : List StoredRow) :
    Option (List String) :=
  if numberTaken row others then some [t.definition.numberName]
  else t.definition.uniqueKeys.find? fun key => others.any (collides (t.places key) row)

/-- Refuses a row that lacks a required column or repeats a key. -/
def checkRow (t : StoredTable) (row : StoredRow) (others : List StoredRow) : Except Fault Unit :=
  match t.missingColumn? row with
  | some column => .error (.notNull t.name column)
  | none =>
      match t.collision? row others with
      | some key => .error (.unique t.name key)
      | none => .ok ()

end StoredTable

end TableAccess
