import TableAccess.Schema.Table
import TableAccess.NameMap

/-!
# Snapshots

The tables of a database as they were at one moment. A snapshot never changes.
-/

namespace TableAccess

/-- An immutable set of tables, found by name. -/
structure Snapshot where
  tables : NameMap Table

namespace Snapshot

def empty : Snapshot := ⟨.empty⟩

instance : Inhabited Snapshot := ⟨empty⟩

/-- The snapshot of a list of tables; a later table replaces an earlier one of
the same name. -/
def ofList (tables : List Table) : Snapshot :=
  ⟨.ofList (tables.map fun t => (t.name, t))⟩

/-- The table of a name, or an error that names it. -/
def resolve (s : Snapshot) (name : String) : Except Error Table :=
  match s.tables.get? name with
  | some t => .ok t
  | none => .error (.unknownTable name)

def contains (s : Snapshot) (name : String) : Bool := s.tables.contains name

def names (s : Snapshot) : List String := s.tables.keys

def size (s : Snapshot) : Nat := s.tables.size

def isEmpty (s : Snapshot) : Bool := s.tables.isEmpty

end Snapshot

end TableAccess
