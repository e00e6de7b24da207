import TableAccess.Value.Basic
import TableAccess.Json.Printer

/-!
# Values and documents

A value can be written as a plain JSON value, without a mark of its kind, and a
JSON value can be read as a value: scalars as the kind they look like, arrays
and objects as their compact text.
-/

namespace TableAccess.Value

/-- A double as a JSON value; infinite and missing numbers have none. -/
def jsonOfDouble (x : Number.Binary64) : Json :=
  if x.isFinite then .float x else .null

def toJson : Value → Json
  | null => .null
  | bool flag => .bool flag
  | int n => .integer n.toInt
  | long n => .integer n.toInt
  | float x => jsonOfDouble x.widen
  | double x => jsonOfDouble x
  | text s => .text s
  | bytes bs => .array (bs.map fun b => .integer b.toNat)
  | timestamp micros => .integer micros.toInt

/-- The value of an integer: itself if it fits 64 bits with a sign, otherwise the
nearest double. -/
def ofInteger (n : Int) : Value :=
  if Int64.minValue.toInt ≤ n ∧ n ≤ Int64.maxValue.toInt then long (Int64.ofInt n)
  else double (.ofUInt64 (UInt64.ofNat n.toNat))

def ofJson : Json → Value
  | .null => null
  | .bool flag => bool flag
  | .integer n => ofInteger n
  | .float x => double x
  | .text s => text s
  | .array items => text (Json.array items).compactText
  | .object members => text (Json.object members).compactText

end TableAccess.Value
