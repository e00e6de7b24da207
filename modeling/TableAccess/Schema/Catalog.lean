import TableAccess.Schema.Snapshot

/-!
# The catalog

The catalog holds the snapshot in force and counts how often it was replaced.
A snapshot is replaced whole or not at all.
-/

namespace TableAccess

/-- The snapshot in force, with the number of times it was replaced. -/
structure Catalog where
  current : Snapshot
  generation : Nat := 0

namespace Catalog

instance : Inhabited Catalog := ⟨⟨.empty, 0⟩⟩

def ofSnapshot (s : Snapshot) : Catalog := ⟨s, 0⟩

def replace (c : Catalog) (s : Snapshot) : Catalog := ⟨s, c.generation + 1⟩

/-- Puts the outcome of a discovery in force; after a failed one the catalog is
as it was. -/
def reload (c : Catalog) (discovered : Except Error Snapshot) : Except Error Unit × Catalog :=
  match discovered with
  | .ok s => (.ok (), c.replace s)
  | .error e => (.error e, c)

def resolve (c : Catalog) (name : String) : Except Error Table := c.current.resolve name

end Catalog

end TableAccess
