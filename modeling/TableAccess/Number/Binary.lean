/-!
# Binary numbers

Single and double precision numbers as their bit patterns, so that equality is
decidable and a zero keeps its sign. Arithmetic is the correctly rounded
arithmetic of `Float`; conversion from other kinds of numbers, comparison with
integers and the writing of digits work on the exact significand and exponent.
-/

namespace TableAccess.Number

/-- The number of binary digits of a number; zero has none. -/
def binaryLength (n : Nat) : Nat := if n = 0 then 0 else Nat.log2 n + 1

/-- The quotient by a power of two, rounded to nearest with ties to even. What is not
zero but lies beyond the last place of the number counts as being above a tie. -/
def shiftRounded (n places : Nat) (beyond : Bool) : Nat :=
  let unit := Nat.pow 2 places
  let quotient := n / unit
  let twice := 2 * (n % unit)
  if unit < twice ∨ (twice = unit ∧ (beyond = true ∨ quotient % 2 = 1)) then quotient + 1
  else quotient

structure Binary32 where
  bits : UInt32
  deriving DecidableEq, Repr, Inhabited

structure Binary64 where
  bits : UInt64
  deriving DecidableEq, Repr, Inhabited

/-- The exact meaning of a bit pattern. -/
inductive Unpacked where
  /-- Not a number. -/
  | nan
  /-- Beyond every finite number of its sign. -/
  | infinite (negative : Bool)
  /-- The number `± significand * 2 ^ exponent`. -/
  | finite (negative : Bool) (significand : Nat) (exponent : Int)
  deriving DecidableEq, Repr

namespace Unpacked

def ofPattern (fractionBits exponentBits bits : Nat) : Unpacked :=
  let fraction := bits % Nat.pow 2 fractionBits
  let biased := bits / Nat.pow 2 fractionBits % Nat.pow 2 exponentBits
  let negative := bits / Nat.pow 2 (fractionBits + exponentBits) % 2 == 1
  let lowest : Int := 2 - Nat.pow 2 (exponentBits - 1) - fractionBits
  if biased = Nat.pow 2 exponentBits - 1 then
    if fraction = 0 then infinite negative else nan
  else if biased = 0 then finite negative fraction lowest
  else finite negative (Nat.pow 2 fractionBits + fraction) (lowest + biased - 1)

def isFinite : Unpacked → Bool
  | finite .. => true
  | _ => false

/-- The whole part of `significand * 2 ^ exponent`. -/
def wholePart (significand : Nat) (exponent : Int) : Nat :=
  significand * Nat.pow 2 exponent.toNat / Nat.pow 2 (-exponent).toNat

end Unpacked

namespace Binary32

def unpack (x : Binary32) : Unpacked :=
  .ofPattern 23 8 x.bits.toNat

end Binary32

namespace Binary64

def toFloat (x : Binary64) : Float :=
  Float.ofBits x.bits

/-- The bit pattern of a `Float`. -/
def ofFloat (x : Float) : Binary64 :=
  ⟨x.toBits⟩

def unpack (x : Binary64) : Unpacked :=
  .ofPattern 52 11 x.bits.toNat

def zero : Binary64 := ⟨0⟩

def infinity : Binary64 := ⟨0x7FF0000000000000⟩

/-- The pattern that stands for a missing number. -/
def nan : Binary64 := ⟨0x7FF8000000000000⟩

def negate (x : Binary64) : Binary64 :=
  ⟨x.bits ^^^ 0x8000000000000000⟩

/-- The exponent of the last place of the double nearest to `significand * 2 ^ exponent`. -/
def lastPlace (significand : Nat) (exponent : Int) : Int :=
  max (exponent + binaryLength significand - 53) (-1074)

/-- The number `significand * 2 ^ exponent` in units of a place, rounded to nearest with
ties to even. -/
def inUnits (significand : Nat) (exponent place : Int) : Nat :=
  if place ≤ exponent then significand * Nat.pow 2 (exponent - place).toNat
  else shiftRounded significand (place - exponent).toNat false

/-- The double nearest to `± significand * 2 ^ exponent`, ties to even; a number beyond
the greatest double is infinite. -/
def nearest (negative : Bool) (significand : Nat) (exponent : Int) : Binary64 :=
  let place := lastPlace significand exponent
  let magnitude :=
    if significand = 0 then 0
    else min ((place + 1074).toNat * Nat.pow 2 52 + inUnits significand exponent place)
      infinity.bits.toNat
  ⟨UInt64.ofNat ((if negative then Nat.pow 2 63 else 0) + magnitude)⟩

/-- The double nearest to a 64-bit integer. -/
def ofInt64 (n : Int64) : Binary64 :=
  nearest (n < 0) n.toInt.natAbs 0

/-- The double nearest to an unsigned 64-bit integer. -/
def ofUInt64 (n : UInt64) : Binary64 :=
  nearest false n.toNat 0

def isNaN (x : Binary64) : Bool :=
  x.unpack = .nan

def isFinite (x : Binary64) : Bool :=
  x.unpack.isFinite

def add (x y : Binary64) : Binary64 :=
  ofFloat (x.toFloat + y.toFloat)

def sub (x y : Binary64) : Binary64 :=
  ofFloat (x.toFloat - y.toFloat)

def div (x y : Binary64) : Binary64 :=
  ofFloat (x.toFloat / y.toFloat)

def abs (x : Binary64) : Binary64 :=
  ⟨x.bits &&& 0x7FFFFFFFFFFFFFFF⟩

/-- The number without its fraction, held within the range of a 64-bit integer;
zero where there is no number. -/
def truncate (x : Binary64) : Int64 :=
  match x.unpack with
  | .nan => 0
  | .infinite negative => if negative then Int64.minValue else Int64.maxValue
  | .finite negative significand exponent =>
      let whole : Int := Unpacked.wholePart significand exponent
      Int64.ofInt (max Int64.minValue.toInt
        (min Int64.maxValue.toInt (if negative then -whole else whole)))

/-- The 64-bit integer of the same value, if there is one. -/
def toInt64? (x : Binary64) : Option Int64 :=
  match x.unpack with
  | .finite negative significand exponent =>
      let whole := Unpacked.wholePart significand exponent
      let signed : Int := if negative then -whole else whole
      if whole * Nat.pow 2 (-exponent).toNat = significand * Nat.pow 2 exponent.toNat ∧
          Int64.minValue.toInt ≤ signed ∧ signed ≤ Int64.maxValue.toInt then
        some (Int64.ofInt signed)
      else none
  | _ => none

end Binary64

def Binary32.widen (x : Binary32) : Binary64 :=
  match x.unpack with
  | .nan => .nan
  | .infinite negative => if negative then Binary64.infinity.negate else .infinity
  | .finite negative significand exponent => .nearest negative significand exponent

/-- The order of `± s * 2 ^ e` and `± t * 2 ^ f`. -/
def compareScaled (s : Int) (e : Int) (t : Int) (f : Int) : Ordering :=
  let base := min e f
  compare (s * Nat.pow 2 (e - base).toNat) (t * Nat.pow 2 (f - base).toNat)

def signedBy (negative : Bool) (significand : Nat) : Int :=
  if negative then -(significand : Int) else significand

/-- The order of two numbers by value; a missing number comes before all others. -/
def Unpacked.order : Unpacked → Unpacked → Ordering
  | nan, nan => .eq
  | nan, _ => .lt
  | _, nan => .gt
  | infinite m, infinite n => compare n m
  | infinite m, finite .. => if m then .lt else .gt
  | finite .., infinite n => if n then .gt else .lt
  | finite m s e, finite n t f => compareScaled (signedBy m s) e (signedBy n t) f

def Unpacked.ofInt (n : Int) : Unpacked :=
  finite (n < 0) n.natAbs 0

end TableAccess.Number
