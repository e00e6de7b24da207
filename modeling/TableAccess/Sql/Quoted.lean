/-!
# Quoted identifiers

An identifier is written between double quotes, with every quote inside it
written twice. Reading goes on until a quote that is not doubled, so a written
identifier shows its own end whatever text comes after it, as long as that text
does not begin with a quote.
-/

namespace TableAccess.Sql

def doubleQuotes : List Char → List Char
  | [] => []
  | c :: rest => if c = '"' then '"' :: '"' :: doubleQuotes rest else c :: doubleQuotes rest

def quoted (name : String) : List Char :=
  '"' :: (doubleQuotes name.toList ++ ['"'])

def qualified (table column : String) : List Char :=
  quoted table ++ '.' :: quoted column

def readInside? : List Char → Option (List Char × List Char)
  | [] => none
  | '"' :: '"' :: rest => (readInside? rest).map fun (name, after) => ('"' :: name, after)
  | '"' :: rest => some ([], rest)
  | c :: rest => (readInside? rest).map fun (name, after) => (c :: name, after)

/-- Reads a quoted identifier at the front of a text, and the text after it. -/
def readQuoted? : List Char → Option (List Char × List Char)
  | '"' :: rest => readInside? rest
  | _ => none

end TableAccess.Sql
