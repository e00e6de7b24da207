import TableAccess.Error
import TableAccess.NameMap
import TableAccess.Value.Document

/-!
# Result rows

A row is read by position or by the name of a column. Names may repeat; reading
by name finds the first, while a map of the row keeps the last.
-/

namespace TableAccess

structure Row where
  columns : List String
  values : List Value
  deriving DecidableEq, Repr

namespace Row

def size (r : Row) : Nat := r.values.length

def isEmpty (r : Row) : Bool := r.values.isEmpty

def at? (r : Row) (index : Nat) : Option Value := r.values[index]?

def get? (r : Row) (name : String) : Option Value :=
  if name ∈ r.columns then r.values[r.columns.idxOf name]? else none

/-- The value of the first column of a name, or an error that names it. -/
def get (r : Row) (name : String) : Except Error Value :=
  match r.get? name with
  | some v => .ok v
  | none => .error (.columnNotFound name)

/-- The value of the first column of a name, or what a reader of a name that is
not there is told. -/
def fetch (r : Row) (name : String) : Except String Value :=
  match r.get? name with
  | some v => .ok v
  | none => .error s!"no column named '{name}' in row"

/-- The value at a position, or what a reader beyond the end is told. -/
def fetchAt (r : Row) (index : Nat) : Except String Value :=
  match r.at? index with
  | some v => .ok v
  | none => .error s!"index out of bounds: the len is {r.values.length} but the index is {index}"

/-- Columns with their values, in result order. -/
def pairs (r : Row) : List (String × Value) := r.columns.zip r.values

/-- The row as a map; the last of several columns of one name stays. -/
def toMap (r : Row) : NameMap Value := .ofList r.pairs

def toJson (r : Row) : Json := .object (r.toMap.map Value.toJson).entries

end Row

end TableAccess
