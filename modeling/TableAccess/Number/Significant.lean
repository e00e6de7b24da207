import TableAccess.Number.Extended
import TableAccess.Number.Shortest

/-!
# Significant digits

A number rounded to a fixed count of significant digits, a half going up, and
the text that a store makes of a real: fifteen digits without zeros at the end,
always with a point, and with an exponent for small and large numbers. The digits
are found in extended precision.
-/

namespace TableAccess.Number

namespace Extended

/-- Multiplies by a factor while a condition holds, counting the places that this moves
the point. The first argument bounds the number of factors. -/
def moveWhile (condition : Extended → Bool) (factor : Extended) (places : Int) :
    Nat → Extended × Int → Extended × Int
  | 0, state => state
  | fuel + 1, (x, moved) =>
      if condition x then moveWhile condition factor places fuel (x.mul factor, moved + places)
      else (x, moved)

/-- A number with seventeen to nineteen digits before the point, and the places by which
the point was moved for it. -/
def manyDigits (x : Extended) : Extended × Int :=
  let least (power : Int) (y : Extended) : Bool := y.order (powerOfTen power) != .lt
  let below (power : Int) (y : Extended) : Bool := y.order (powerOfTen power) == .lt
  if least 19 x then
    moveWhile (least 19) (powerOfTen (-1)) 1 20
      (moveWhile (least 29) (powerOfTen (-10)) 10 20
        (moveWhile (least 119) (powerOfTen (-100)) 100 20 (x, 0)))
  else
    moveWhile (below 17) (powerOfTen 1) (-1) 20
      (moveWhile (below 7) (powerOfTen 10) (-10) 20
        (moveWhile (below (-97)) (powerOfTen 100) (-100) 20 (x, 0)))

/-- The digits of a number rounded to `count` significant ones. -/
def significant (x : Extended) (count : Nat) : Decimal :=
  let (moved, exponent) := x.manyDigits
  let digits := moved.whole
  let extra := decimalLength digits - count
  let unit := Nat.pow 10 extra
  (Decimal.mk ((2 * digits + unit) / (2 * unit)) (exponent + extra)).normalized

end Extended

def Decimal.pointed (d : Decimal) : List Char :=
  if 0 ≤ d.exponent then d.positional ++ ['.', '0'] else d.positional

/-- One digit, a point, at least one digit, and an exponent of two digits or more. -/
def Decimal.pointedScientific (d : Decimal) : List Char :=
  let place := d.scientificExponent
  let mantissa := (Decimal.mk d.significand (1 - d.digits.length)).pointed
  let power := Nat.toDigits 10 place.natAbs
  mantissa ++ 'e' :: (if place < 0 then '-' else '+')
    :: (List.replicate (2 - power.length) '0' ++ power)

def Binary64.storeText (x : Binary64) : String :=
  match x.unpack with
  | .nan => "NaN"
  | .infinite negative => if negative then "-Inf" else "Inf"
  | .finite negative significand exponent =>
      if significand = 0 then "0.0"
      else
        let decimal := (Extended.nearest significand exponent false).significant 15
        let place := decimal.scientificExponent
        let shown :=
          if place < -4 ∨ 14 < place then decimal.pointedScientific else decimal.pointed
        String.ofList (if negative then '-' :: shown else shown)

end TableAccess.Number
