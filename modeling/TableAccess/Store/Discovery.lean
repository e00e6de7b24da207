import TableAccess.Schema.Snapshot
import TableAccess.Store.Database
import TableAccess.Store.Like

/-!
# Discovery

The description of a database for a catalog: its tables and views by name, except
those whose names are like the store's own: a reserved word and one more character.
-/

namespace TableAccess

namespace Database

def isInternal (name : String) : Bool := Like.matchesPattern "sqlite_%".toList name.toList

/-- The type of a view's column. A column of a table that declares nothing is
reported as one for bytes. -/
def viewedType (c : StoredColumn) : String :=
  if c.typeName.isEmpty then "BLOB" else c.reportedType

/-- The description of a view: columns as in its table, but without constraints. -/
def describeView (name : String) (d : Definition) : Table where
  name := name
  columns := d.columns.map fun c => { name := c.name, declared := viewedType c }

/-- The description of a table or a view of a name; a view that shows nothing is a fault
about its name. -/
def describe (db : Database) (name : String) : Except (String × Fault) (Option Table) :=
  match db.table? name with
  | some t => .ok (some t.definition.describe)
  | none =>
      match db.view? name with
      | some v =>
          ((db.underView v).map fun t => some (describeView v.name t.definition)).mapError
            fun fault => (v.name, fault)
      | none => .ok none

/-- The descriptions of all tables and views, in the order of their names. -/
def discover (db : Database) : Except (String × Fault) (List Table) := do
  let names := db.tables.map (·.name) ++ db.views.map (·.name)
  let shown := (names.filter fun name => !isInternal name).mergeSort fun a b => a ≤ b
  pure ((← shown.mapM db.describe).filterMap id)

end Database

end TableAccess
