import TableAccess.Filter.Operator
import TableAccess.Value.Basic

/-!
# Filters

A filter is an ordered list of entries. An entry pairs a key, the name of a
field with an optional operator suffix, with a value or a list of values; under
one reserved key stands a group of further filters, of which at least one has to
hold. All entries of a filter have to hold together.
-/

namespace TableAccess

mutual

/-- The right-hand side of an entry. -/
inductive FilterValue where
  | scalar (v : Value)
  | list (vs : List Value)
  | group (members : List Filter)
  deriving Repr

/-- A filter: entries in the order in which they were written. -/
inductive Filter where
  | entries (list : List (String × FilterValue))
  deriving Repr

end

def orKey : String := "or__"

/-- The form of a right-hand side. -/
inductive Shape where
  | scalar
  | list
  | group
  deriving DecidableEq, Repr

def Shape.label : Shape → String
  | scalar => "scalar"
  | list => "list"
  | group => "group"

def FilterValue.shape : FilterValue → Shape
  | scalar _ => .scalar
  | list _ => .list
  | group _ => .group

namespace Filter

instance : Inhabited Filter := ⟨entries []⟩

def empty : Filter := entries []

def toList : Filter → List (String × FilterValue)
  | entries list => list

def size (f : Filter) : Nat := f.toList.length

def isEmpty (f : Filter) : Bool := f.toList.isEmpty

end Filter

end TableAccess
