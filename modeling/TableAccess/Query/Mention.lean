import TableAccess.Fault
import TableAccess.Mutation.Update
import TableAccess.Query.Written

/-!
# Mentions

The columns that a statement mentions, in the order in which a store looks them up, and
where they stand in its text. A fault about a column tells its place, unless the column
stands in the condition of a join.
-/

namespace TableAccess

open Sql (Fragment)

structure Mention where
  table : String
  field : String
  /-- The byte of the text at which it is reported to stand. -/
  place : Option Nat
  deriving DecidableEq, Repr

namespace Mention

def placed (before clause : List (Fragment Value)) : List Mention :=
  (Fragment.columnsFrom (Fragment.byteLength before) clause).map fun (table, field, place) =>
    ⟨table, field, some place⟩

/-- The mentions in a clause whose columns are reported without their places. -/
def unplaced (clause : List (Fragment Value)) : List Mention :=
  (placed [] clause).map fun m => { m with place := none }

/-- A fault about a mention, told with its place in a statement. -/
def locate (m : Mention) (sql : String) (fault : Fault) : Fault :=
  match m.place with
  | some place => .located fault sql place
  | none => fault

end Mention

def Select.mentions (s : Select) : List Mention :=
  let shown := s.shownFragments
  let sources := shown ++ s.sourceFragments
  let conditions := sources ++ s.whereFragments
  Mention.placed [] shown
    ++ Mention.placed sources s.whereFragments
    ++ Mention.unplaced s.sourceFragments
    ++ Mention.placed (conditions ++ s.groupFragments) s.orderFragments
    ++ Mention.placed conditions s.groupFragments

def Update.mentions (u : Update) : List Mention :=
  Mention.placed u.headFragments u.condition.fragments

def Delete.mentions (d : Delete) : List Mention :=
  Mention.placed d.headFragments d.condition.fragments

end TableAccess
