import TableAccess.Json.Basic
import TableAccess.NameMap

/-!
# Reading JSON text

A reader for one JSON document. Numbers become integers or doubles by the way
they are written, escapes are undone, and objects are put in the order of their
names, where the last of several members of one name stays.
-/

namespace TableAccess.Json

/-- The text without the blanks that JSON allows between its tokens. -/
def skipBlanks (source : List Char) : List Char :=
  source.dropWhile fun c => c = ' ' || c = '\t' || c = '\n' || c = '\r'

def hexValue? (c : Char) : Option Nat :=
  if c.isDigit then some (c.toNat - '0'.toNat)
  else if 'a' ≤ c && c ≤ 'f' then some (c.toNat - 'a'.toNat + 10)
  else if 'A' ≤ c && c ≤ 'F' then some (c.toNat - 'A'.toNat + 10)
  else none

def hexUnit? : List Char → Option (Nat × List Char)
  | a :: b :: c :: d :: rest => do
      let a ← hexValue? a
      let b ← hexValue? b
      let c ← hexValue? c
      let d ← hexValue? d
      pure (((a * 16 + b) * 16 + c) * 16 + d, rest)
  | _ => none

/-- Reads the rest of an escape that begins with a backslash and `u`; a leading
surrogate must be followed by the escape of a trailing one. -/
def unicodeEscape? (source : List Char) : Option (Char × List Char) := do
  let (unit, rest) ← hexUnit? source
  if 0xD800 ≤ unit ∧ unit < 0xDC00 then
    match rest with
    | '\\' :: 'u' :: tail =>
        let (low, rest) ← hexUnit? tail
        if 0xDC00 ≤ low ∧ low < 0xE000 then
          pure (Char.ofNat (0x10000 + (unit - 0xD800) * 0x400 + (low - 0xDC00)), rest)
        else none
    | _ => none
  else if 0xDC00 ≤ unit ∧ unit < 0xE000 then none
  else pure (Char.ofNat unit, rest)

def escape? : List Char → Option (Char × List Char)
  | '"' :: rest => some ('"', rest)
  | '\\' :: rest => some ('\\', rest)
  | '/' :: rest => some ('/', rest)
  | 'b' :: rest => some (Char.ofNat 8, rest)
  | 'f' :: rest => some (Char.ofNat 12, rest)
  | 'n' :: rest => some ('\n', rest)
  | 'r' :: rest => some ('\r', rest)
  | 't' :: rest => some ('\t', rest)
  | 'u' :: rest => unicodeEscape? rest
  | _ => none

def stringTail? : Nat → List Char → Option (List Char × List Char)
  | 0, _ => none
  | _, [] => none
  | _, '"' :: rest => some ([], rest)
  | fuel + 1, '\\' :: rest => do
      let (c, rest) ← escape? rest
      let (tail, rest) ← stringTail? fuel rest
      pure (c :: tail, rest)
  | fuel + 1, c :: rest =>
      if c.toNat < 32 then none
      else do
        let (tail, rest) ← stringTail? fuel rest
        pure (c :: tail, rest)

def quoted? (source : List Char) : Option (String × List Char) :=
  (stringTail? (source.length + 1) source).map fun (cs, rest) => (String.ofList cs, rest)

/-- The value of a numeral: an integer if it is written as one, is not minus
zero, and fits 64 bits; otherwise the nearest double. -/
def ofNumeral (numeral : Number.Numeral) : Json :=
  let magnitude := Number.digitsValue numeral.whole
  if numeral.point || numeral.exponent.isSome || (numeral.negative && magnitude == 0) then
    float (numeral.magnitude.toBinary64 numeral.negative)
  else if numeral.negative && magnitude ≤ Nat.pow 2 63 then integer (-(magnitude : Int))
  else if !numeral.negative && magnitude < Nat.pow 2 64 then integer magnitude
  else float (numeral.magnitude.toBinary64 numeral.negative)

def word? (word : String) (value : Json) (source : List Char) : Option (Json × List Char) :=
  if word.toList.isPrefixOf source then some (value, source.drop word.length) else none

mutual

/-- Reads one value. A nested value takes two steps and at least one character,
so twice the length of the text is enough fuel. -/
def value? : Nat → List Char → Option (Json × List Char)
  | 0, _ => none
  | fuel + 1, source =>
      match skipBlanks source with
      | '"' :: rest => (quoted? rest).map fun (s, rest) => (text s, rest)
      | '[' :: rest =>
          match skipBlanks rest with
          | ']' :: rest => some (array [], rest)
          | rest => (items? fuel rest).map fun (items, rest) => (array items, rest)
      | '\x7b' :: rest =>
          match skipBlanks rest with
          | '\x7d' :: rest => some (object [], rest)
          | rest => (members? fuel rest).map fun (members, rest) =>
              (object (NameMap.ofList members).entries, rest)
      | 't' :: rest => word? "true" (bool true) ('t' :: rest)
      | 'f' :: rest => word? "false" (bool false) ('f' :: rest)
      | 'n' :: rest => word? "null" null ('n' :: rest)
      | rest =>
          let numeral := Number.Numeral.take rest
          if numeral.whole.isEmpty then none else some (ofNumeral numeral, numeral.rest)

/-- Reads the items of an array that is not empty, with its closing bracket. -/
def items? : Nat → List Char → Option (List Json × List Char)
  | 0, _ => none
  | fuel + 1, source => do
      let (item, rest) ← value? fuel source
      match skipBlanks rest with
      | ',' :: rest =>
          let (items, rest) ← items? fuel rest
          pure (item :: items, rest)
      | ']' :: rest => pure ([item], rest)
      | _ => none

/-- Reads the members of an object that is not empty, with its closing brace. -/
def members? : Nat → List Char → Option (List (String × Json) × List Char)
  | 0, _ => none
  | fuel + 1, source =>
      match skipBlanks source with
      | '"' :: rest => do
          let (name, rest) ← quoted? rest
          match skipBlanks rest with
          | ':' :: rest =>
              let (value, rest) ← value? fuel rest
              match skipBlanks rest with
              | ',' :: rest =>
                  let (members, rest) ← members? fuel rest
                  pure ((name, value) :: members, rest)
              | '\x7d' :: rest => pure ([(name, value)], rest)
              | _ => none
          | _ => none
      | _ => none

end

/-- Reads a text that holds one document and nothing else but blanks. -/
def read? (source : String) : Option Json := do
  let (document, rest) ← value? (2 * source.length + 2) source.toList
  if (skipBlanks rest).isEmpty then some document else none

end TableAccess.Json
