import TableAccess.Number.Decimal

/-!
# Extended numbers

Positive numbers with a significand of 64 bits and an exponent without bounds. A
store scales numbers by powers of ten in this precision, one factor after the
other, and every constant and every product is rounded. What it reads from a
numeral is therefore close to the nearest double, but not always the nearest.
-/

namespace TableAccess.Number

/-- The number `significand * 2 ^ exponent`. -/
structure Extended where
  significand : Nat
  exponent : Int
  deriving DecidableEq, Repr, Inhabited

namespace Extended

def precision : Nat := 64

/-- The number nearest to `significand * 2 ^ exponent`, or to a little more than that. -/
def nearest (significand : Nat) (exponent : Int) (beyond : Bool) : Extended :=
  let places := binaryLength significand - precision
  ⟨shiftRounded significand places beyond, exponent + places⟩

def ofNat (n : Nat) : Extended := nearest n 0 false

def powerOfTen (power : Int) : Extended :=
  if 0 ≤ power then ofNat (Nat.pow 10 power.toNat)
  else
    let divisor := Nat.pow 10 power.natAbs
    let places := binaryLength divisor + precision + 2
    nearest (Nat.pow 2 places / divisor) (-places) (Nat.pow 2 places % divisor != 0)

def mul (x y : Extended) : Extended :=
  nearest (x.significand * y.significand) (x.exponent + y.exponent) false

def order (x y : Extended) : Ordering :=
  compareScaled x.significand x.exponent y.significand y.exponent

def whole (x : Extended) : Nat := Unpacked.wholePart x.significand x.exponent

/-- The product with a power of ten, made of factors of a hundred, ten and one places. -/
def scaled (x : Extended) (power : Int) : Extended :=
  let factor (places : Int) : Extended :=
    powerOfTen (if power < 0 then -places else places)
  let steps := power.natAbs
  let hundreds := Nat.repeat (fun r => r.mul (factor 100)) (steps / 100) x
  let tens := Nat.repeat (fun r => r.mul (factor 10)) (steps % 100 / 10) hundreds
  Nat.repeat (fun r => r.mul (factor 1)) (steps % 10) tens

/-- The nearest double; a number above the greatest double is infinite. -/
def toBinary64 (x : Extended) : Binary64 :=
  let greatest : Extended := ⟨Nat.pow 2 53 - 1, 971⟩
  if x.order greatest == .gt then .infinity else .nearest false x.significand x.exponent

end Extended

namespace Numeral

/-- From this significand on, further digits are left out. -/
def fullSignificand : Nat := (Nat.pow 2 64 - 1 - 9) / 10

/-- Puts digits at the end of a significand until it is full; the second result tells how
many digits were left out. -/
def gather (significand : Nat) : List Char → Nat × Nat
  | [] => (significand, 0)
  | c :: rest =>
      if significand < fullSignificand then gather (10 * significand + digitValue c) rest
      else (significand, rest.length + 1)

/-- The significand and the power of ten that count for a store: the first digits, as many
as fit. -/
def leading (n : Numeral) : Decimal :=
  let (whole, skipped) := gather 0 n.whole
  let (significand, unused) := gather whole n.fraction
  let asked := max (-10000) (min 10000 (n.exponent.getD 0))
  ⟨significand, asked + skipped - (n.fraction.length - unused)⟩

end Numeral

namespace Decimal

/-- Moves powers of ten into the significand as long as it fits 64 bits. -/
def absorb : Nat → Decimal → Decimal
  | 0, d => d
  | fuel + 1, d =>
      if 0 < d.exponent ∧ d.significand < (Nat.pow 2 64 - 1) / 10 then
        absorb fuel ⟨10 * d.significand, d.exponent - 1⟩
      else d

/-- Moves zeros at the end of the significand into a negative power of ten. -/
def shed : Nat → Decimal → Decimal
  | 0, d => d
  | fuel + 1, d =>
      if d.exponent < 0 ∧ d.significand % 10 = 0 then
        shed fuel ⟨d.significand / 10, d.exponent + 1⟩
      else d

/-- The double that a store makes of `± decimal`. -/
def toStored (negative : Bool) (d : Decimal) : Binary64 :=
  let reduced := (d.absorb 20).shed 20
  let unsigned :=
    if d.significand = 0 then Binary64.zero
    else ((Extended.ofNat reduced.significand).scaled reduced.exponent).toBinary64
  if negative then unsigned.negate else unsigned

end Decimal

end TableAccess.Number
