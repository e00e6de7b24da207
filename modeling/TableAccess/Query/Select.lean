import TableAccess.Predicate.Basic
import TableAccess.Query.Basic

/-!
# Checked queries

A query whose names have all been found in a catalog: what is shown, which rows
are taken, and in which order.
-/

namespace TableAccess

/-- The functions that can be taken over the rows of a group. -/
inductive AggregateFunction where
  | count
  | sum
  | avg
  | min
  | max
  deriving DecidableEq, Repr

namespace AggregateFunction

def ofName? (name : String) : Option AggregateFunction :=
  if name = "count" then some count
  else if name = "sum" then some sum
  else if name = "avg" then some avg
  else if name = "min" then some min
  else if name = "max" then some max
  else none

def unknownName (name : String) : String := s!"Invalid aggregate function: '{name}'"

def isArithmetic : AggregateFunction → Bool
  | sum | avg => true
  | _ => false

def symbol : AggregateFunction → String
  | count => "COUNT"
  | sum => "SUM"
  | avg => "AVG"
  | min => "MIN"
  | max => "MAX"

end AggregateFunction

inductive Projection where
  | column (table field : String)
  | aggregate (function : AggregateFunction) (table field label : String)
  deriving DecidableEq, Repr

structure JoinedTable where
  table : String
  outer : Bool
  primaryColumn : String
  secondaryColumn : String
  condition : Predicate
  deriving Repr

inductive OrderTarget where
  | column (field : String)
  | aggregate (label : String)
  deriving DecidableEq, Repr

structure Select where
  table : String
  distinct : Bool
  projections : List Projection
  join : Option JoinedTable
  condition : Predicate
  groupBy : List String
  order : Option (OrderTarget × Direction)
  limit : Nat
  offset : Nat
  deriving Repr

end TableAccess
