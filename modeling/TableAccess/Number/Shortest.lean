import TableAccess.Number.Decimal

/-!
# Shortest digits

The decimal with the fewest digits that reads back as a given binary number, the
nearest such decimal where there are several, and its written forms. A finite
number `m * 2 ^ e` is what every real between the midpoints to its neighbours
rounds to; the midpoints count when `m` is even.
-/

namespace TableAccess.Number

/-- Where two shortest decimals are equally near. -/
inductive Tie where
  /-- The one with the even last digit. -/
  | toEven
  /-- The larger magnitude. -/
  | away
  deriving DecidableEq, Repr

/-- The reals that round to one positive number, all multiplied by
`denominator`: the number itself, and the two ends of its interval. -/
structure Interval where
  value : Nat
  low : Nat
  high : Nat
  denominator : Nat
  /-- Whether the ends belong to the interval. -/
  closed : Bool
  deriving DecidableEq, Repr

namespace Interval

/-- The interval of `significand * 2 ^ exponent`. Below a power of two the
neighbour is only half as far, unless it is the lowest exponent. -/
def around (significand : Nat) (exponent : Int) (isPower : Bool) : Interval :=
  let shift := Nat.pow 2 (exponent - 2).toNat
  { value := 4 * significand * shift
    low := (4 * significand - if isPower then 1 else 2) * shift
    high := (4 * significand + 2) * shift
    denominator := Nat.pow 2 (2 - exponent).toNat
    closed := significand % 2 == 0 }

/-- Whether the decimal `significand * 10 ^ exponent` lies in the interval. -/
def holds (i : Interval) (d : Decimal) : Bool :=
  let scaled := d.significand * Nat.pow 10 d.exponent.toNat * i.denominator
  let unit := Nat.pow 10 (-d.exponent).toNat
  if i.closed then i.low * unit ≤ scaled && scaled ≤ i.high * unit
  else i.low * unit < scaled && scaled < i.high * unit

/-- The multiple of `10 ^ exponent` just below the value, or the value. -/
def below (i : Interval) (exponent : Int) : Nat :=
  i.value * Nat.pow 10 (-exponent).toNat / (i.denominator * Nat.pow 10 exponent.toNat)

/-- The order of the value and the midpoint of `lower` and its successor on the
grid of `10 ^ exponent`. -/
def orderToMidpoint (i : Interval) (lower : Nat) (exponent : Int) : Ordering :=
  compare (2 * (i.value * Nat.pow 10 (-exponent).toNat))
    ((2 * lower + 1) * (i.denominator * Nat.pow 10 exponent.toNat))

/-- The decimal of the grid `10 ^ exponent` within the interval that is nearest
to the value. -/
def nearest? (i : Interval) (tie : Tie) (exponent : Int) : Option Decimal :=
  let lower := i.below exponent
  let down : Decimal := ⟨lower, exponent⟩
  let up : Decimal := ⟨lower + 1, exponent⟩
  match i.holds down, i.holds up with
  | true, true =>
      match i.orderToMidpoint lower exponent, tie with
      | .lt, _ => some down
      | .gt, _ => some up
      | .eq, .away => some up
      | .eq, .toEven => some (if lower % 2 == 0 then down else up)
  | true, false => some down
  | false, true => some up
  | false, false => none

/-- The exponent of the value's first decimal digit. The value is moved up by
more places than the smallest double has before its first digit. -/
def leadingExponent (i : Interval) : Int :=
  (decimalLength (i.value * Nat.pow 10 400 / i.denominator) : Int) - 401

/-- The shortest decimal in the interval: the coarsest grid that meets it. -/
def shortest (i : Interval) (tie : Tie) : Decimal :=
  let leading := i.leadingExponent
  ((List.range 17).findSome? fun (places : Nat) => i.nearest? tie (leading - places)).getD
    ⟨i.below (leading - 17), leading - 17⟩

end Interval

namespace Decimal

def stripZeros (fuel : Nat) (d : Decimal) : Decimal :=
  match fuel with
  | 0 => d
  | fuel + 1 =>
      if d.significand ≠ 0 ∧ d.significand % 10 = 0 then
        stripZeros fuel ⟨d.significand / 10, d.exponent + 1⟩
      else d

def normalized (d : Decimal) : Decimal :=
  d.stripZeros (decimalLength d.significand)

def digits (d : Decimal) : List Char :=
  Nat.toDigits 10 d.significand

/-- Positional digits; a fraction appears only if there is one. -/
def positional (d : Decimal) : List Char :=
  let shown := d.digits
  if 0 ≤ d.exponent then shown ++ List.replicate d.exponent.toNat '0'
  else
    let places := (-d.exponent).toNat
    if places < shown.length then
      shown.take (shown.length - places) ++ '.' :: shown.drop (shown.length - places)
    else '0' :: '.' :: (List.replicate (places - shown.length) '0' ++ shown)

def scientificExponent (d : Decimal) : Int :=
  d.exponent + d.digits.length - 1

/-- One digit, the others after a point, and the exponent with its sign. -/
def scientific (d : Decimal) : List Char :=
  let mantissa := match d.digits with
    | [] => []
    | [first] => [first]
    | first :: others => first :: '.' :: others
  let exponent := d.scientificExponent
  mantissa ++ 'e' :: (if exponent < 0 then '-' else '+') :: Nat.toDigits 10 exponent.natAbs

end Decimal

/-- The shortest decimal that reads back as `significand * 2 ^ exponent`. -/
def shortestDecimal (tie : Tie) (fractionBits : Nat) (lowest : Int) (significand : Nat)
    (exponent : Int) : Decimal :=
  if significand = 0 then ⟨0, 0⟩
  else
    ((Interval.around significand exponent
      (significand == Nat.pow 2 fractionBits && lowest < exponent)).shortest tie).normalized

/-- The text of a number in positional digits, never with an exponent. -/
def Unpacked.plainText (fractionBits : Nat) (lowest : Int) : Unpacked → String
  | .nan => "NaN"
  | .infinite negative => if negative then "-inf" else "inf"
  | .finite negative significand exponent =>
      let shown := (shortestDecimal .away fractionBits lowest significand exponent).positional
      String.ofList (if negative then '-' :: shown else shown)

/-- The text of a single precision number, for people to read. -/
def Binary32.plainText (x : Binary32) : String :=
  x.unpack.plainText 23 (-149)

/-- The text of a double precision number, for people to read. -/
def Binary64.plainText (x : Binary64) : String :=
  x.unpack.plainText 52 (-1074)

/-- The text of a finite double in a document: a fraction or an exponent is
always shown, and the exponent takes over outside `10 ^ -5` to `10 ^ 16`. -/
def Binary64.documentText (x : Binary64) : List Char :=
  match x.unpack with
  | .finite negative significand exponent =>
      let decimal := shortestDecimal .toEven 52 (-1074) significand exponent
      let place := decimal.scientificExponent
      let shown :=
        if -5 ≤ place ∧ place ≤ 15 then
          if 0 ≤ decimal.exponent then decimal.positional ++ ['.', '0'] else decimal.positional
        else decimal.scientific
      if negative then '-' :: shown else shown
  | _ => "null".toList

end TableAccess.Number
