import TableAccess.Value.Basic
import TableAccess.Instant.Written
import TableAccess.Text.Letters

/-!
# Readings of values

A value can be read as another kind where that makes sense: numbers as flags,
texts as numbers, microseconds as instants. A reading that makes no sense is
`none`.
-/

namespace TableAccess.Value

/-- The flag that a text spells, in letters of any case. -/
def flag? (s : String) : Option Bool :=
  let word := Text.lowercase s
  if word = "true" ∨ word = "yes" ∨ word = "1" then some true
  else if word = "false" ∨ word = "no" ∨ word = "0" then some false
  else none

/-- The value as a flag; integers are true unless they are zero. -/
def asBool : Value → Option Bool
  | bool flag => some flag
  | int n => some (n != 0)
  | long n => some (n != 0)
  | text s => flag? s
  | _ => none

def asDouble : Value → Option Number.Binary64
  | double x => some x
  | float x => some x.widen
  | int n => some (.ofInt64 n.toInt64)
  | long n => some (.ofInt64 n)
  | text s => Number.float64? (Text.trimmed s)
  | _ => none

/-- The value as a 64-bit integer; a fraction is dropped. -/
def asLong : Value → Option Int64
  | long n => some n
  | timestamp micros => some micros
  | int n => some n.toInt64
  | bool flag => some (if flag then 1 else 0)
  | float x => some x.widen.truncate
  | double x => some x.truncate
  | text s => Number.int64? (Text.trimmed s)
  | _ => none

def asText : Value → Option String
  | text s => some s
  | _ => none

/-- The bytes of a binary value, or of a text in UTF-8. -/
def asBytes : Value → Option (List UInt8)
  | bytes bs => some bs
  | text s => some s.toUTF8.toList
  | _ => none

/-- The value as an instant: integers count microseconds, texts are written
instants. -/
def asInstant : Value → Option Instant
  | timestamp micros => Instant.ofMicros? micros.toInt
  | long n => Instant.ofMicros? n.toInt
  | int n => Instant.ofMicros? n.toInt
  | text s => Instant.read? s
  | _ => none

def ofInstant (i : Instant) : Value :=
  timestamp (Int64.ofInt i.micros)

end TableAccess.Value
