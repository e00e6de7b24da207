import TableAccess.Sql.Quoted

/-!
# Fragments

A statement is put together from fragments: fixed text, names that are quoted
when they are written, columns with their tables, and slots, each written as a
question mark. A slot carries what is to be bound there, so the text and the bound
values cannot get out of step. The place of a column in the text can be told, for
reports about it.
-/

namespace TableAccess.Sql

/-- A piece of a statement whose slots carry an `α`. -/
inductive Fragment (α : Type) where
  | verbatim (s : String)
  | name (s : String)
  | column (table field : String)
  | slot (bound : α)
  deriving DecidableEq, Repr

namespace Fragment

variable {α β : Type}

def text : Fragment α → List Char
  | verbatim s => s.toList
  | name s => quoted s
  | column table field => qualified table field
  | slot _ => ['?']

def bound? : Fragment α → Option α
  | slot bound => some bound
  | _ => none

def separated (separator : String) : List (List (Fragment α)) → List (Fragment α)
  | [] => []
  | [last] => last
  | first :: next :: rest =>
      first ++ verbatim separator :: separated separator (next :: rest)

def render (fragments : List (Fragment α)) : String :=
  String.ofList (fragments.flatMap text)

/-- What a list of fragments binds, from left to right. -/
def bounds (fragments : List (Fragment α)) : List α :=
  fragments.filterMap bound?

/-- The number of bytes that a list of fragments takes in a statement. -/
def byteLength (fragments : List (Fragment α)) : Nat := (render fragments).utf8ByteSize

/-- The columns that fragments mention, each with the byte of a statement at which it
stands, if the first fragment stands at a given byte. -/
def columnsFrom : Nat → List (Fragment α) → List (String × String × Nat)
  | _, [] => []
  | place, fragment :: rest =>
      let later := columnsFrom (place + byteLength [fragment]) rest
      match fragment with
      | column table field => (table, field, place) :: later
      | _ => later

end Fragment

end TableAccess.Sql
