import TableAccess.Store.Definition

/-!
# Indexes

The orders that a table is kept in: that of its row numbers or of its primary key, and
one more for each other key, whose entries end with what finds the row. What a table
holds is not counted; every table is estimated at the same size. Counts and costs need
not be exact and are kept as tenths of their logarithm to the base two: ten more is
twice as much, and a product is a sum.
-/

namespace TableAccess

/-- A count or a cost, in tenths of its logarithm to the base two. -/
abbrev Estimate : Type := Int

namespace Estimate

/-- The tenths that stand for the eighths by which a count is above a power of two. -/
def eighths : List Estimate := [0, 2, 3, 5, 6, 7, 8, 9]

/-- The estimate of a count. Nothing is estimated as one. -/
def ofCount (n : Nat) : Estimate :=
  if n = 0 then 0 else 10 * (n.log2 : Int) + eighths.getD (n * 8 / Nat.pow 2 n.log2 - 8) 0

/-- What a count gains by another one that is smaller by so many tenths. -/
def gain (gap : Nat) : Estimate :=
  if gap ≤ 1 then 10
  else if gap ≤ 3 then 9
  else if gap ≤ 5 then 8
  else if gap ≤ 8 then 7
  else if gap ≤ 11 then 6
  else if gap ≤ 14 then 5
  else if gap ≤ 18 then 4
  else if gap ≤ 24 then 3
  else if gap ≤ 31 then 2
  else if gap ≤ 49 then 1
  else 0

def plus (a b : Estimate) : Estimate := max a b + gain (a - b).natAbs

/-- The estimate of the steps that find one among many. -/
def search (among : Estimate) : Estimate :=
  if among ≤ 10 then 0 else ofCount among.toNat - 33

end Estimate

inductive IndexKind where
  /-- The rows themselves, by their numbers. -/
  | numbers
  | primaryKey
  | key
  /-- Entries that are made for one statement. -/
  | made
  deriving DecidableEq, Repr

/-- An order in which the rows of a table can be visited. -/
structure Index where
  kind : IndexKind
  /-- The cells that entries are ordered by; together they tell all rows apart. -/
  places : List CellPlace
  /-- How many of the places form the key. -/
  keyLength : Nat
  /-- Whether the entries are in descending order of the first place. -/
  descending : Bool := false
  /-- Whether the cells of the key are never null. -/
  strict : Bool := false
  /-- Whether the entries are the rows themselves. -/
  whole : Bool := false
  /-- The estimated size of an entry. -/
  width : Estimate
  deriving DecidableEq, Repr

namespace StoredColumn

def afterLast? (word : List Char) : List Char → Option (List Char)
  | [] => none
  | c :: rest =>
      match afterLast? word rest with
      | some found => some found
      | none => if word.isPrefixOf (c :: rest) then some ((c :: rest).drop word.length) else none

/-- The first number in a text; one that is too great counts as none. -/
def firstNumber (text : List Char) : Nat :=
  let digits := (text.dropWhile fun c => !c.isDigit).takeWhile Char.isDigit
  let n := digits.foldl (fun n c => 10 * n + (c.toNat - '0'.toNat)) 0
  if n < Nat.pow 2 31 then n else 0

/-- The estimated size of a cell, in units of four bytes: that of a number is one, and
that of a text or bytes follows from the length that the declared type tells. -/
def size (c : StoredColumn) : Nat :=
  let words := (Text.uppercase c.typeName).toList
  let usual := 5
  let ofLength (rest : List Char) : Nat := min (firstNumber rest / 4 + 1) 255
  match c.type with
  | .text => ((afterLast? "CHAR".toList words).map ofLength).getD usual
  | .blob =>
      if words.isEmpty then 1 else ((afterLast? "BLOB(".toList words).map ofLength).getD usual
  | _ => 1

end StoredColumn

namespace Definition

/-- The number of rows that every table is estimated at. -/
def estimatedRows : Estimate := 200

/-- The place of a cell by which rows are ordered: a column that is another name for the
row number is ordered by that. -/
def orderPlace? (d : Definition) (name : String) : Option CellPlace :=
  if d.namesNumber name then some .number else (d.position? name).map .cell

def placeSize (d : Definition) : CellPlace → Nat
  | .cell position => ((d.columns[position]?).map (·.size)).getD 1
  | .number => 1

def placeType (d : Definition) : CellPlace → ColumnType
  | .cell position => ((d.columns[position]?).map (·.type)).getD .blob
  | .number => .integer

def canBeNull (d : Definition) : CellPlace → Bool
  | .cell position => ((d.columns[position]?).map fun c => !d.required c).getD true
  | .number => false

def cellPlaces (d : Definition) : List CellPlace := (List.range d.columns.length).map .cell

def rowWidth (d : Definition) : Estimate :=
  let sizes := (d.columns.map (·.size)).foldr (· + ·) 0
  .ofCount (4 * if d.rowidAlias?.isNone then sizes + 1 else sizes)

def entryWidth (d : Definition) (places : List CellPlace) : Estimate :=
  .ofCount (4 * (places.map d.placeSize).foldr (· + ·) 0)

def orderPlaces (d : Definition) (names : List String) : List CellPlace :=
  names.filterMap d.orderPlace?

def primaryPlaces (d : Definition) : List CellPlace :=
  d.orderPlaces (d.keyColumns.map (·.name))

def numberIndex : Index where
  kind := .numbers
  places := [.number]
  keyLength := 1
  width := 3

def keyIndex (d : Definition) (names : List String) : Index :=
  let primary := d.rowidAlias?.isNone && names == d.keyColumns.map (·.name)
  let whole := d.withoutRowid && primary
  let key := d.orderPlaces names
  let rest :=
    if whole then d.cellPlaces else if d.withoutRowid then d.primaryPlaces else [.number]
  let places := key ++ rest.filter fun place => place == .number || !key.contains place
  { kind := if primary then .primaryKey else .key
    places
    keyLength := key.length
    descending := primary && d.keyColumns.length == 1 && d.keyColumns.all (·.descending)
    strict := whole || names.all fun name =>
      ((d.columns.find? fun c => Text.same c.name name).map (·.notNull)).getD false
    whole
    width := d.entryWidth places }

def indexes (d : Definition) : List Index :=
  let keys := d.uniqueKeys.map d.keyIndex
  if d.withoutRowid then keys else numberIndex :: keys

end Definition

namespace Index

/-- How many rows are estimated to agree in some places of the key at the front, by the
number of these places. The whole key belongs to one row. -/
def rows (i : Index) (places : Nat) : Estimate :=
  if places = 0 then Definition.estimatedRows
  else if i.keyLength ≤ places then 0
  else [33, 32, 30, 28, 27].getD (places - 1) 23

def key (i : Index) : List CellPlace := i.places.take i.keyLength

def covers (i : Index) (places : List CellPlace) : Bool :=
  i.whole || places.all fun place => place == .number || i.key.contains place

end Index

end TableAccess
