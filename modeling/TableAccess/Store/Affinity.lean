import TableAccess.Schema.Table
import TableAccess.Store.NumericText

/-!
# Affinity

The kind of a column changes the values that are stored in it and the values
that it is compared with: numeric columns turn texts that look like numbers into
numbers, text columns turn numbers into texts, and columns for bytes leave
everything as it is.
-/

namespace TableAccess

open Number (Binary64)

namespace Cell

/-- A number as a double; a zero has no sign. -/
def asReal : Cell → Cell
  | integer n => real (.ofInt64 n)
  | real x => if x = Binary64.zero.negate then real .zero else real x
  | other => other

/-- A real without a fraction as an integer. The least integer is left a real. -/
def asWhole : Cell → Cell
  | real x =>
      match x.toInt64? with
      | some n => if n = Int64.minValue then real x else integer n
      | none => real x
  | other => other

def asNumber : Cell → Cell
  | text s => (NumericText.cell? s.toList).getD (text s)
  | other => other

def asText : Cell → Cell
  | integer n => text (toString n.toInt)
  | real x => text x.storeText
  | other => other

end Cell

namespace ColumnType

/-- What a column of the kind stores for a cell. -/
def stored : ColumnType → Cell → Cell
  | integer, c => c.asNumber.asWhole
  | numeric, c => c.asNumber.asWhole
  | real, c => c.asNumber.asReal
  | text, c => c.asText
  | blob, c => c

private def isText : Cell → Bool
  | .text _ => true
  | _ => false

/-- A stored cell and an operand, as a column of the kind compares them. -/
def comparable (type : ColumnType) (cell operand : Cell) : Cell × Cell :=
  if type.isNumeric then (cell.asNumber, operand.asNumber)
  else if type = text ∧ (isText cell || isText operand) then (cell.asText, operand.asText)
  else (cell, operand)

/-- The cells of two columns, as they are compared with each other: if one of the
kinds is numeric, texts that look like numbers are numbers. -/
def comparablePair (first second : ColumnType) (a b : Cell) : Cell × Cell :=
  if first.isNumeric || second.isNumeric then (a.asNumber, b.asNumber) else (a, b)

end ColumnType

end TableAccess
