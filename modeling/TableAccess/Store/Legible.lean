import TableAccess.Fault
import TableAccess.Mutation.BulkUpdate
import TableAccess.Query.Select

/-!
# Legible statements

A store reads a statement before it looks for the tables. The statement ends at its first
NUL, which leaves the quoted piece around it without an end; and the conditions in it can
only be nested to a depth, where a chain of conjunctions or disjunctions counts as nested.
-/

namespace TableAccess

namespace Sql

/-- Whether a text holds the character at which a statement ends. -/
def hasNul (s : String) : Bool := s.toList.any fun c => c.toNat == 0

/-- The position of the quote that is not closed in a text, if one was left open. A quote
that follows a closed piece of its kind goes on with the piece. -/
def openQuote? : Nat → Option (Char × Nat × Bool) → List Char → Option Nat
  | _, some (_, start, true), [] => some start
  | _, _, [] => none
  | n, piece, c :: rest =>
      let fresh := if c = '"' ∨ c = '\'' then some (c, n, true) else none
      let next := match piece with
        | some (quote, start, isOpen) =>
            if c = quote then some (quote, start, !isOpen) else if isOpen then piece else fresh
        | none => fresh
      openQuote? (n + 1) next rest

/-- The quoted piece in which a statement breaks off, and the byte at which it begins. -/
def brokenPiece? (sql : String) : Option (String × Nat) :=
  let seen := sql.toList.takeWhile fun c => c.toNat != 0
  (openQuote? 0 none seen).map fun n =>
    (String.ofList (seen.drop n), (String.ofList (seen.take n)).utf8ByteSize)

def requireWhole (sql : String) : Except Fault Unit :=
  match brokenPiece? sql with
  | some (piece, place) => .error (.located (.unfinished piece) sql place)
  | none => .ok ()

def greatestDepth : Nat := 1000

/-- Refuses conditions that are nested too deep. -/
def requireShallow (depth : Nat) : Except Fault Unit :=
  if greatestDepth < depth then .error (.tooDeep greatestDepth) else .ok ()

end Sql

/-- The depth of a condition: that of the comparison of a column of a table, and one more
where it is denied. -/
def Condition.depth (c : Condition) : Nat :=
  match c.test with
  | .list .notIn _ => 4
  | _ => 3

namespace Predicate

mutual

def depth : Predicate → Nat
  | unrestricted => 2
  | const _ => 2
  | condition c => c.depth
  | all parts => chainDepth 0 parts
  | any parts => chainDepth 0 parts

/-- The depth of a chain that goes on with several predicates; zero is the depth of one that
has not begun. -/
def chainDepth (before : Nat) : List Predicate → Nat
  | [] => before
  | part :: rest =>
      chainDepth (if before = 0 then part.depth else max before part.depth + 1) rest

end

end Predicate

/-- The depth of the condition by which the rows of a bulk update address stored rows: a chain of
comparisons of columns that are written without their table. -/
def BulkUpdate.depth (b : BulkUpdate) : Nat := b.keys.length + 1

def JoinedTable.depth (j : JoinedTable) : Nat :=
  if j.condition.isUnrestricted then 3 else max 3 j.condition.depth + 1

namespace Select

def writtenDepth (s : Select) : Nat :=
  max s.condition.depth ((s.join.map (·.depth)).getD 0)

/-- The depth of the conditions of a query once they are put together. -/
def depth (s : Select) : Nat :=
  match s.join with
  | some j => if s.condition.isUnrestricted then j.depth else s.writtenDepth + 1
  | none => s.condition.depth

end Select

end TableAccess
