import TableAccess.Number.Shortest

/-!
# JSON documents

The values of JSON text. A number is an integer if it was written without a
point or an exponent and fits 64 bits, signed or unsigned; every other number is
a double. The members of an object stand in increasing order of their names.
-/

namespace TableAccess

inductive Json where
  | null
  | bool (flag : Bool)
  | integer (n : Int)
  | float (x : Number.Binary64)
  | text (s : String)
  | array (items : List Json)
  | object (members : List (String × Json))
  deriving Repr, Inhabited

namespace Json

/-- Whether the value is neither an array nor an object. -/
def isScalar : Json → Bool
  | array _ => false
  | object _ => false
  | _ => true

end Json

end TableAccess
