import TableAccess.Number.Binary

/-!
# Decimal numerals

A decimal is an integer number of powers of ten. This module reads digit
strings, whole numbers and floating-point numerals, and rounds a decimal to the
nearest double.
-/

namespace TableAccess.Number

/-- The number `significand * 10 ^ exponent`. -/
structure Decimal where
  significand : Nat
  exponent : Int
  deriving DecidableEq, Repr

def digitValue (c : Char) : Nat := c.toNat - '0'.toNat

def digitsValue (digits : List Char) : Nat :=
  digits.foldl (fun value c => 10 * value + digitValue c) 0

def spanDigits (text : List Char) : List Char × List Char :=
  (text.takeWhile Char.isDigit, text.dropWhile Char.isDigit)

/-- Takes an optional sign; the flag tells whether it was a minus. -/
def takeSign : List Char → Bool × List Char
  | '-' :: rest => (true, rest)
  | '+' :: rest => (false, rest)
  | text => (false, text)

/-- Reads an unsigned whole number: at least one digit and nothing else. -/
def wholeNumber? (text : List Char) : Option Nat :=
  if text.isEmpty || !text.all Char.isDigit then none else some (digitsValue text)

def integer? (text : List Char) : Option Int :=
  let (negative, rest) := takeSign text
  (wholeNumber? rest).map fun n => if negative then -(n : Int) else n

/-- Reads a whole number that fits 64 bits with a sign. -/
def int64? (text : List Char) : Option Int64 :=
  (integer? text).bind fun n =>
    if Int64.minValue.toInt ≤ n ∧ n ≤ Int64.maxValue.toInt then some (Int64.ofInt n) else none

/-- Reads a whole number that fits 64 bits without a sign; a plus may precede it. -/
def uint64? (text : List Char) : Option UInt64 :=
  let rest := match text with
    | '+' :: rest => rest
    | _ => text
  (wholeNumber? rest).bind fun n => if n < Nat.pow 2 64 then some (UInt64.ofNat n) else none

/-- The parts of a numeral: digits before and after the point, whether there is
a point, the exponent if one is written, and the text that follows. -/
structure Numeral where
  negative : Bool
  whole : List Char
  point : Bool
  fraction : List Char
  exponent : Option Int
  rest : List Char
  deriving DecidableEq, Repr

namespace Numeral

/-- Takes an exponent mark with its digits; without digits the mark stays. -/
def takeExponent (text : List Char) : Option Int × List Char :=
  match text with
  | mark :: tail =>
      if mark = 'e' ∨ mark = 'E' then
        let (negative, unsigned) := takeSign tail
        let (digits, rest) := spanDigits unsigned
        if digits.isEmpty then (none, text)
        else (some (if negative then -(digitsValue digits : Int) else digitsValue digits), rest)
      else (none, text)
  | [] => (none, [])

/-- Takes the longest numeral at the front of a text; it may hold no digit. -/
def take (text : List Char) : Numeral :=
  let (negative, unsigned) := takeSign text
  let (whole, afterWhole) := spanDigits unsigned
  let (point, fraction, afterFraction) := match afterWhole with
    | '.' :: tail => let (fraction, rest) := spanDigits tail; (true, fraction, rest)
    | _ => (false, [], afterWhole)
  let (exponent, rest) := takeExponent afterFraction
  ⟨negative, whole, point, fraction, exponent, rest⟩

def hasDigits (n : Numeral) : Bool :=
  !n.whole.isEmpty || !n.fraction.isEmpty

def magnitude (n : Numeral) : Decimal :=
  ⟨digitsValue (n.whole ++ n.fraction), n.exponent.getD 0 - n.fraction.length⟩

end Numeral

/-- The number of decimal digits of a number; zero has none. -/
def decimalLength (n : Nat) : Nat :=
  if n = 0 then 0 else decimalLength (n / 10) + 1

namespace Decimal

/-- The double nearest to `± decimal`, ties to even. Numbers beyond four hundred
places are infinite or zero without being computed. -/
def toBinary64 (negative : Bool) (d : Decimal) : Binary64 :=
  let magnitude := d.exponent + decimalLength d.significand
  let unsigned :=
    if d.significand = 0 ∨ magnitude < -400 then Binary64.zero
    else if 400 < magnitude then Binary64.infinity
    else if d.exponent < 0 then
      Binary64.ofFloat (OfScientific.ofScientific d.significand true (-d.exponent).toNat)
    else Binary64.ofFloat (OfScientific.ofScientific d.significand false d.exponent.toNat)
  if negative then unsigned.negate else unsigned

end Decimal

/-- Reads a floating-point numeral that fills the whole text: an optional sign,
then `inf`, `infinity` or `nan` in letters of any case, or digits with an
optional point and an optional exponent. -/
def float64? (text : List Char) : Option Binary64 :=
  let (negative, unsigned) := takeSign text
  let word := String.ofList (unsigned.map Char.toLower)
  if word = "inf" ∨ word = "infinity" then
    some (if negative then Binary64.infinity.negate else Binary64.infinity)
  else if word = "nan" then some Binary64.nan
  else
    let numeral := Numeral.take text
    if numeral.hasDigits && numeral.rest.isEmpty then
      some (numeral.magnitude.toBinary64 numeral.negative)
    else none

end TableAccess.Number
