import TableAccess.Json.Basic

/-!
# JSON text

The compact text of a document: no spaces, and in strings only the quote, the
backslash and the control characters below space are escaped.
-/

namespace TableAccess.Json

def hexDigit (n : Nat) : Char := Nat.digitChar n

def escapeChar (c : Char) : List Char :=
  if c = '"' then ['\\', '"']
  else if c = '\\' then ['\\', '\\']
  else if c = '\n' then ['\\', 'n']
  else if c = '\r' then ['\\', 'r']
  else if c = '\t' then ['\\', 't']
  else if c.toNat = 8 then ['\\', 'b']
  else if c.toNat = 12 then ['\\', 'f']
  else if c.toNat < 32 then
    ['\\', 'u', '0', '0', hexDigit (c.toNat / 16), hexDigit (c.toNat % 16)]
  else [c]

def quoteText (s : String) : List Char :=
  '"' :: (s.toList.flatMap escapeChar ++ ['"'])

def integerText (n : Int) : List Char :=
  if n < 0 then '-' :: Nat.toDigits 10 n.natAbs else Nat.toDigits 10 n.natAbs

mutual

def compact : Json → List Char
  | null => "null".toList
  | bool flag => if flag then "true".toList else "false".toList
  | integer n => integerText n
  | float x => x.documentText
  | text s => quoteText s
  | array items => '[' :: (compactItems items ++ [']'])
  | object members => '\x7b' :: (compactMembers members ++ ['\x7d'])

def compactItems : List Json → List Char
  | [] => []
  | [item] => item.compact
  | item :: next :: rest => item.compact ++ ',' :: compactItems (next :: rest)

def compactMembers : List (String × Json) → List Char
  | [] => []
  | [(name, value)] => quoteText name ++ ':' :: value.compact
  | (name, value) :: next :: rest =>
      quoteText name ++ ':' :: (value.compact ++ ',' :: compactMembers (next :: rest))

end

def compactText (document : Json) : String := String.ofList document.compact

end TableAccess.Json
