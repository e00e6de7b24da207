import TableAccess.Filter.Basic

/-!
# Queries

A request to read one table, possibly joined with a second one, as its caller
describes it: by names that are not yet checked. Each setter replaces what was
set before, except that aggregates add up.
-/

namespace TableAccess

inductive Direction where
  | ascending
  | descending
  deriving DecidableEq, Repr

/-- A requested aggregate: a function, named in words, of a column. -/
structure Aggregate where
  label : String
  column : String
  function : String
  deriving DecidableEq, Repr

structure Join where
  primaryTable : String
  primaryColumn : String
  secondaryTable : String
  secondaryColumn : String
  /-- Columns of the second table to show. -/
  columns : List String := []
  /-- Whether rows without a partner are kept. -/
  outer : Bool := false
  /-- What a partner has to satisfy besides the equality. -/
  condition : Filter := .empty
  deriving Repr

structure Query where
  table : String
  /-- The columns to show; all of them if none are named. -/
  columns : List String := []
  filter : Filter := .empty
  join : Option Join := none
  groupBy : List String := []
  aggregates : List Aggregate := []
  order : Option String := none
  direction : Direction := .descending
  distinct : Bool := false
  /-- The greatest number of rows, or zero for no limit. -/
  limit : Nat := 0
  /-- The number of rows to leave out first. -/
  offset : Nat := 0
  deriving Repr

namespace Query

def ofTable (table : String) : Query := { table }

def withColumns (q : Query) (columns : List String) : Query := { q with columns }

def withAllColumns (q : Query) : Query := { q with columns := [] }

def withFilter (q : Query) (filter : Filter) : Query := { q with filter }

def withJoin (q : Query) (join : Join) : Query := { q with join := some join }

def withGroupBy (q : Query) (groupBy : List String) : Query := { q with groupBy }

def withAggregate (q : Query) (aggregate : Aggregate) : Query :=
  { q with aggregates := q.aggregates ++ [aggregate] }

/-- Orders by a column or by the label of an aggregate, in the direction set. -/
def orderedBy (q : Query) (name : String) : Query := { q with order := some name }

def directed (q : Query) (direction : Direction) : Query := { q with direction }

def onlyDistinct (q : Query) : Query := { q with distinct := true }

/-- Sets the greatest number of rows; zero means no limit. -/
def withLimit (q : Query) (limit : Nat) : Query := { q with limit }

/-- Sets the number of rows to leave out first. -/
def withOffset (q : Query) (offset : Nat) : Query := { q with offset }

end Query

end TableAccess
