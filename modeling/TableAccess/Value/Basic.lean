import TableAccess.Number.Shortest

/-!
# Values

The scalar values that filters, mutations and result rows carry.
-/

namespace TableAccess

inductive Value where
  | null
  | bool (flag : Bool)
  | int (n : Int32)
  | long (n : Int64)
  | float (x : Number.Binary32)
  | double (x : Number.Binary64)
  | text (s : String)
  | bytes (bs : List UInt8)
  /-- Microseconds since the epoch. -/
  | timestamp (micros : Int64)
  deriving DecidableEq, Repr, Inhabited

namespace Value

def isNull : Value → Bool
  | null => true
  | _ => false

def kindName : Value → String
  | null => "null"
  | bool _ => "bool"
  | int _ => "int"
  | long _ => "long"
  | float _ => "float"
  | double _ => "double"
  | text _ => "string"
  | bytes _ => "bytes"
  | timestamp _ => "timestamp"

def display : Value → String
  | null => "null"
  | bool flag => if flag then "true" else "false"
  | int n => toString n.toInt
  | long n => toString n.toInt
  | float x => x.plainText
  | double x => x.plainText
  | text s => s
  | bytes bs => s!"<{bs.length} bytes>"
  | timestamp micros => toString micros.toInt

end Value

end TableAccess
