import TableAccess.Number.Extended
import TableAccess.Store.Cell

/-!
# Numbers in stored texts

A text that is nothing but a numeral, with blanks around it allowed, looks like
a number. Where a number is needed from any text, the longest numeral at its
front counts, and zero if there is none.
-/

namespace TableAccess.NumericText

open Number (Binary64 Numeral)

def isSpace (c : Char) : Bool := c = ' ' || (9 ≤ c.toNat && c.toNat ≤ 13)

def scan (source : List Char) : Numeral :=
  let numeral := Numeral.take (source.dropWhile isSpace)
  { numeral with rest := numeral.rest.dropWhile isSpace }

def isWhole (n : Numeral) : Bool := !n.point && n.exponent.isNone

/-- The digits before the point, as a 64-bit integer. -/
def int64? (n : Numeral) : Option Int64 :=
  let magnitude : Int := Number.digitsValue n.whole
  let signed := if n.negative then -magnitude else magnitude
  if Int64.minValue.toInt ≤ signed ∧ signed ≤ Int64.maxValue.toInt then
    some (Int64.ofInt signed)
  else none

def real (n : Numeral) : Binary64 := n.leading.toStored n.negative

/-- The number that a text looks like. -/
def cell? (source : List Char) : Option Cell :=
  let n := scan source
  if n.hasDigits && n.rest.isEmpty then
    match isWhole n, int64? n with
    | true, some whole => some (.integer whole)
    | _, _ => some (.real (real n))
  else none

/-- The number at the front of a text. A whole front is an integer if it fits. -/
def prefixCell (source : List Char) : Cell :=
  let n := scan source
  if !n.hasDigits then .integer 0
  else
    match isWhole n, int64? n with
    | true, some whole => .integer whole
    | _, _ => .real (real n)

/-- The characters of a byte string that can belong to a numeral. -/
def ofBytes (bs : List UInt8) : List Char := bs.map fun b => Char.ofNat b.toNat

end TableAccess.NumericText
