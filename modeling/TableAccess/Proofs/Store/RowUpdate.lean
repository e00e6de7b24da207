import TableAccess.Proofs.Mutation.RowUpdate
import TableAccess.Proofs.Store.Discovery
import TableAccess.Proofs.Store.Matching
import TableAccess.Proofs.Store.RowByRow

/-!
# Rows run as updates

A row of a bulk update and the update that it stands for are matched alike, address the same stored
rows and make the same of them, if the table has the key columns and the limit on the depth of
conditions does not lie between the two. So they do the same to the content of a store, or are
refused with the same fault, told of one statement or the other.
-/

namespace TableAccess

/-! ## Updates -/

/-- An update by itself: it is matched against the content and run. -/
def Update.change (u : Update) : Change Nat := do
  Attempt.of fun content => (content.database.prepareUpdate u, content)
  Change.update u

/-- Two ends of a change that are alike but for the place that a fault tells. -/
structure Change.AlikeUpToPlace {α : Type} (first second : Except Fault α × Content) : Prop where
  result : first.1.mapError Fault.bare = second.1.mapError Fault.bare
  content : first.2 = second.2

/-- Choosing the same rows of the table that is found changes them alike. -/
theorem Change.updateWhere_congr {table : String} {assignments : List (Assignment Cell)}
    {chosen other : Database → StoredTable → List StoredRow} {x : Content}
    (same : ∀ t, x.database.table? table = some t → chosen x.database t = other x.database t) :
    (updateWhere table assignments chosen).outcome x =
      (updateWhere table assignments other).outcome x := by
  have inner {first second : Change Nat} (alike : first.outcome x = second.outcome x) :
      (whole first).outcome x = (whole second).outcome x := by
    unfold whole
    rw [Attempt.outcome_of, Attempt.outcome_of, alike]
  unfold updateWhere
  apply inner
  rw [Attempt.outcome_bind, Attempt.outcome_bind]
  have looked : (target table).outcome x = (x.database.target table, x) := rfl
  rw [looked]
  cases found : x.database.target table with
  | error fault => rfl
  | ok t =>
      dsimp only
      rw [Attempt.outcome_bind, Attempt.outcome_bind, Attempt.outcome_reading]
      dsimp only
      rw [same t (Database.target_eq_ok_iff.mp found)]

namespace StoredTable

variable {α β : Type} (db : Database) (t : StoredTable) (condition : Predicate)
  (assignments : List (Assignment α)) (f : α → β)

/-- What is assigned does not show in the order of updating. -/
theorem inUpdateOrder_map (rows : List StoredRow) :
    t.inUpdateOrder db condition (assignments.map (Assignment.map f)) rows =
      t.inUpdateOrder db condition assignments rows := by
  have increments : ((assignments.map (Assignment.map f)).filter (·.increment)).map (·.column) =
      (assignments.filter (·.increment)).map (·.column) := by
    rw [List.filter_map, List.map_map]
    rfl
  unfold inUpdateOrder updateVisit?
  rw [Assignment.columns_map, increments]

/-- At most one row has only one order. -/
theorem inUpdateOrder_of_length_le {rows : List StoredRow} (few : rows.length ≤ 1) :
    t.inUpdateOrder db condition assignments rows = rows := by
  unfold inUpdateOrder
  split
  · cases rows with
    | nil => rw [List.mergeSort_nil]
    | cons row rest =>
        obtain rfl : rest = [] := by simpa using few
        rw [List.mergeSort_singleton]
  · rfl

end StoredTable

theorem Database.requireAssigned_map {α β : Type} (f : α → β) (t : StoredTable)
    (assignments : List (Assignment α)) :
    requireAssigned t (assignments.map (Assignment.map f)) = requireAssigned t assignments := by
  induction assignments with
  | nil => rfl
  | cons a rest ih => exact congrArg (_ >>= fun _ => ·) ih

namespace BulkUpdate

variable {s : Snapshot} {name : String} {rows : List RowValues} {keys : List String}
  {chunkSize : Nat} {b : BulkUpdate} {row : RowValues} {db : Database} {t : StoredTable}
  {x : Content}

/-- The table of a bulk update has its key columns, if it is there. -/
def KeysStored (b : BulkUpdate) (db : Database) : Prop :=
  ∀ t ∈ db.table? b.table, ∀ key ∈ b.keys, t.definition.hasColumn key = true

instance (b : BulkUpdate) (db : Database) : Decidable (b.KeysStored db) :=
  inferInstanceAs (Decidable
    (∀ t ∈ db.table? b.table, ∀ key ∈ b.keys, t.definition.hasColumn key = true))

/-- Where the catalog describes the database, the table has its key columns. -/
theorem keysStored_of_describes (accepted : compile s name rows keys chunkSize = .ok (some b))
    (described : s.Describes db) : b.KeysStored db := by
  intro t here key member
  obtain ⟨table, _, found, same, own, _⟩ := of_compile accepted
  obtain ⟨named, shown⟩ := described name table found
  have known : table.hasColumn key = true := keys_of_compile accepted found key (own ▸ member)
  have stored : db.table? name = some t := by
    rw [← named, ← same]
    exact here
  rcases Database.describe_cases shown with ⟨other, there, rfl⟩ | ⟨_, _, missing, _⟩
  · cases stored.symm.trans there
    exact Definition.hasColumn_of_describe known
  · cases stored.symm.trans missing

/-! ## Matching -/

/-- A statement that can be read to its end is matched exactly as the other one. -/
theorem prepareUpdate_of_whole (keyed : b.keys ≠ []) (stored : b.KeysStored db)
    (room : b.keys.length + 1 ≠ Sql.greatestDepth)
    (legible : Sql.requireWhole (b.rowUpdate row).statement.sql = Sql.requireWhole b.sql) :
    db.prepareUpdate (b.rowUpdate row) = db.prepareBulk b := by
  have shallow : Sql.requireShallow (b.rowUpdate row).condition.depth =
      Sql.requireShallow b.depth := by
    have deep : (b.rowUpdate row).condition.depth = b.keys.length + 2 := depth_condition keyed row
    unfold Sql.requireShallow
    rw [deep, depth]
    apply if_congr _ rfl rfl
    omega
  have columns : (b.rowUpdate row).assignments.map (·.column) = b.assignments.map (·.column) :=
    Assignment.columns_map _ b.assignments
  have known (t : StoredTable) (found : db.target b.table = .ok t) :
      Database.requireMentioned t (b.rowUpdate row).statement.sql (b.rowUpdate row).mentions =
        .ok () := by
    apply forM_eq_ok_iff.mpr
    intro m mentioned
    apply if_pos
    exact stored t (Database.target_eq_ok_iff.mp found) _ (b.mentions_rowUpdate row m mentioned)
  unfold Database.prepareUpdate Database.prepareBulk
  dsimp only
  rw [legible, shallow, columns]
  apply bind_congr_of_ok
  intro _ _
  apply bind_congr_of_ok
  intro _ _
  apply bind_congr_of_ok
  intro t found
  rw [known t found, rowUpdate, Database.requireAssigned_map]
  rfl

/-- The update of a row is matched as the bulk update is: both are, or both are refused with the
same fault. -/
theorem prepareUpdate_rowUpdate
    (accepted : compile s name rows keys chunkSize = .ok (some b)) (listed : row ∈ rows)
    (unreserved : orKey ∉ keys) (stored : b.KeysStored db)
    (room : keys.length + 1 ≠ Sql.greatestDepth) :
    (db.prepareUpdate (b.rowUpdate row)).mapError Fault.bare =
      (db.prepareBulk b).mapError Fault.bare := by
  obtain ⟨_, _, keyed, _⟩ := compile_eq_ok_iff.mp accepted
  obtain rfl := keys_eq_of_compile accepted
  have legible := requireWhole_rowUpdate accepted listed unreserved
  cases own : Sql.requireWhole b.sql with
  | ok _ =>
      rw [own] at legible
      have whole := mapError_eq_ok_iff.mp legible
      rw [prepareUpdate_of_whole keyed stored room (whole.trans own.symm)]
  | error fault =>
      rw [own] at legible
      obtain ⟨other, broken, same⟩ := mapError_eq_error_iff.mp legible
      unfold Database.prepareUpdate Database.prepareBulk
      dsimp only
      rw [own, broken]
      exact congrArg Except.error same

/-! ## Running -/

/-- The update of a row addresses the stored rows that the row addresses. -/
theorem satisfies_condition (given : ∀ key ∈ b.keys, valueAt row key ≠ .null)
    (known : ∀ key ∈ b.keys, t.definition.hasColumn key = true) (stored : StoredRow) :
    t.satisfies (b.condition row) stored = (Truth.all (b.keys.map fun key =>
      Database.keyTruth t stored key (valueAt row key))).holds := by
  unfold StoredTable.satisfies condition
  rw [Predicate.truth_conj, List.map_map]
  congr 2
  apply List.map_congr_left
  intro key member
  rw [Database.keyTruth, if_pos (known key member)]
  exact t.conditionTruth_equality stored b.table key (given key member)

/-- The update of a row changes stored rows as the row does. -/
theorem outcome_update_rowUpdate (given : ∀ key ∈ b.keys, valueAt row key ≠ .null)
    (stored : b.KeysStored x.database) :
    (Change.update (b.rowUpdate row)).outcome x = (Change.updateKeyed b row).outcome x := by
  have operands : (b.rowUpdate row).assignments.map (fun a => a.map Cell.ofValue) =
      b.assignments.map fun a => a.map fun key => Cell.ofValue (valueAt row key) := by
    rw [rowUpdate, List.map_map]
    rfl
  unfold Change.update Change.updateKeyed
  dsimp only
  rw [operands]
  apply Change.updateWhere_congr
  intro t found
  have chosen : t.satisfies (b.rowUpdate row).condition = fun stored =>
      (Truth.all (b.keys.map fun key => Database.keyTruth t stored key (valueAt row key))).holds :=
    funext (satisfies_condition given (stored t found))
  rw [chosen]
  exact StoredTable.inUpdateOrder_map _ t _ _ _ _

/-- The update of a row does to a content what the row does. -/
theorem outcome_change_rowUpdate
    (accepted : compile s name rows keys chunkSize = .ok (some b)) (listed : row ∈ rows)
    (unreserved : orKey ∉ keys) (stored : b.KeysStored x.database)
    (room : keys.length + 1 ≠ Sql.greatestDepth) :
    Change.AlikeUpToPlace ((b.rowUpdate row).change.outcome x) ((b.rowChange row).outcome x) := by
  have matched := prepareUpdate_rowUpdate accepted listed unreserved stored room
  unfold Update.change rowChange
  rw [Attempt.outcome_bind, Attempt.outcome_bind, Attempt.outcome_of, Attempt.outcome_of]
  cases own : x.database.prepareBulk b with
  | ok _ =>
      rw [own] at matched
      rw [mapError_eq_ok_iff.mp matched]
      dsimp only
      rw [outcome_update_rowUpdate (given_of_compile accepted row listed) stored]
      exact ⟨rfl, rfl⟩
  | error fault =>
      rw [own] at matched
      obtain ⟨other, unmatched, same⟩ := mapError_eq_error_iff.mp matched
      rw [unmatched]
      exact ⟨congrArg Except.error same, rfl⟩

/-- At one number of keys the store can read the bulk update, but the update of a row is one
comparison deeper and is refused. -/
theorem outcome_change_of_full (keyed : b.keys ≠ [])
    (full : b.keys.length + 1 = Sql.greatestDepth) (row : RowValues) (x : Content) :
    ∃ fault, (b.rowUpdate row).change.outcome x = (.error fault, x) := by
  have deep : (b.rowUpdate row).condition.depth = b.keys.length + 2 := depth_condition keyed row
  have refused : Sql.requireShallow (b.rowUpdate row).condition.depth =
      .error (.tooDeep Sql.greatestDepth) := by
    unfold Sql.requireShallow
    rw [deep]
    apply if_pos
    omega
  have unmatched : ∃ fault, x.database.prepareUpdate (b.rowUpdate row) = .error fault := by
    unfold Database.prepareUpdate
    dsimp only
    rw [refused]
    cases Sql.requireWhole (b.rowUpdate row).statement.sql with
    | ok _ => exact ⟨_, rfl⟩
    | error fault => exact ⟨fault, rfl⟩
  obtain ⟨fault, unmatched⟩ := unmatched
  refine ⟨fault, ?_⟩
  unfold Update.change
  rw [Attempt.outcome_bind, Attempt.outcome_of, unmatched]

end BulkUpdate

end TableAccess
