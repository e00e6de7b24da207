import TableAccess.Number.Significant
import TableAccess.Value.Basic

/-!
# Cells

What a table stores: null, an integer, a real, a text, or bytes. Cells of all
kinds are ordered: null, then numbers by value, then texts, then bytes. A real
is always a number, since a missing number is stored as null.
-/

namespace TableAccess

open Number (Binary64 Unpacked)

inductive Cell where
  | null
  | integer (n : Int64)
  | real (x : Binary64)
  | text (s : String)
  | blob (bs : List UInt8)
  deriving DecidableEq, Repr, Inhabited

namespace Cell

def isNull : Cell → Bool
  | null => true
  | _ => false

/-- The cell of a double; a missing number becomes null. -/
def ofReal (x : Binary64) : Cell := if x.isNaN then null else real x

def ofValue : Value → Cell
  | .null => null
  | .bool flag => integer (if flag then 1 else 0)
  | .int n => integer n.toInt64
  | .long n => integer n
  | .float x => ofReal x.widen
  | .double x => ofReal x
  | .text s => text s
  | .bytes bs => blob bs
  | .timestamp micros => integer micros

def toValue : Cell → Value
  | null => .null
  | integer n => .long n
  | real x => .double x
  | text s => .text s
  | blob bs => .bytes bs

/-- The place of a kind of cell in the order of cells. -/
def rank : Cell → Nat
  | null => 0
  | integer _ => 1
  | real _ => 1
  | text _ => 2
  | blob _ => 3

def number? : Cell → Option Unpacked
  | integer n => some (.ofInt n.toInt)
  | real x => some x.unpack
  | _ => none

def compareBytes : List UInt8 → List UInt8 → Ordering
  | [], [] => .eq
  | [], _ :: _ => .lt
  | _ :: _, [] => .gt
  | a :: first, b :: second => (compare a b).then (compareBytes first second)

def order (first second : Cell) : Ordering :=
  match first, second with
  | text s, text t => compare s t
  | blob s, blob t => compareBytes s t
  | _, _ =>
      match first.number?, second.number? with
      | some x, some y => x.order y
      | _, _ => compare first.rank second.rank

def same (first second : Cell) : Bool := first.order second == .eq

end Cell

end TableAccess
