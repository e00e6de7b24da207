import TableAccess.Instant.Basic
import TableAccess.Number.Decimal

/-!
# Written instants

Reads a date and a time of day with an offset from universal time, such as
`2024-03-01T12:00:00.5+01:00`. The parts have fixed widths and nothing may
follow the offset.
-/

namespace TableAccess.Instant

/-- Reads exactly `width` digits. -/
def fixedDigits? (width : Nat) (text : List Char) : Option (Nat × List Char) :=
  let digits := text.take width
  if digits.length = width ∧ digits.all Char.isDigit then
    some (Number.digitsValue digits, text.drop width)
  else none

def oneOf? (allowed : List Char) : List Char → Option (List Char)
  | c :: rest => if allowed.contains c then some rest else none
  | [] => none

/-- Nanoseconds of a fraction; digits after the ninth are dropped. -/
def fractionNanos (digits : List Char) : Nat :=
  let kept := digits.take 9
  Number.digitsValue kept * Nat.pow 10 (9 - kept.length)

/-- Reads an optional point with at least one digit after it, as nanoseconds. -/
def fraction? : List Char → Option (Nat × List Char)
  | '.' :: rest =>
      let (digits, rest) := Number.spanDigits rest
      if digits.isEmpty then none else some (fractionNanos digits, rest)
  | text => some (0, text)

/-- The whole text of an offset in seconds: the letter Z, or a sign with hours
and minutes that stay below a day. -/
def offsetSeconds? (text : List Char) : Option Int :=
  match text with
  | [] => none
  | mark :: rest =>
      if mark = 'Z' ∨ mark = 'z' then if rest.isEmpty then some 0 else none
      else do
        let negative ←
          if mark = '+' then some false
          else if mark = '-' ∨ mark = '\u2212' then some true
          else none
        let (hours, rest) ← fixedDigits? 2 rest
        let rest ← oneOf? [':'] rest
        let (minutes, rest) ← fixedDigits? 2 rest
        if rest.isEmpty ∧ minutes ≤ 59 ∧ hours ≤ 23 then
          let seconds : Int := (hours * 3600 + minutes * 60 : Nat)
          pure (if negative then -seconds else seconds)
        else none

/-- Reads a written instant. Second sixty is the leap second after second
fifty-nine, in any minute. -/
def read? (text : String) : Option Instant := do
  let (year, rest) ← fixedDigits? 4 text.toList
  let rest ← oneOf? ['-'] rest
  let (month, rest) ← fixedDigits? 2 rest
  let rest ← oneOf? ['-'] rest
  let (day, rest) ← fixedDigits? 2 rest
  let rest ← oneOf? ['T', 't', ' '] rest
  let (hour, rest) ← fixedDigits? 2 rest
  let rest ← oneOf? [':'] rest
  let (minute, rest) ← fixedDigits? 2 rest
  let rest ← oneOf? [':'] rest
  let (second, rest) ← fixedDigits? 2 rest
  let (nanos, rest) ← fraction? rest
  let offset ← offsetSeconds? rest
  if Calendar.isDate year month day ∧ hour ≤ 23 ∧ minute ≤ 59 ∧ second ≤ 60 then
    let clock := hour * 3600 + minute * 60 + min second 59
    let leap := if second = 60 then 1000000000 else 0
    pure ⟨Calendar.dayNumber year month day * 86400 + (clock : Nat) - offset, nanos + leap⟩
  else none

end TableAccess.Instant
