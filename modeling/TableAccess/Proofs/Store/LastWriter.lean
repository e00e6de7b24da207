import TableAccess.Proofs.Mutation.Compilation
import TableAccess.Proofs.Store.Effects
import TableAccess.Proofs.Store.Tables

/-!
# The last writer of a row

Rows of a bulk update that replace cells and leave its key columns alone address the same stored
rows before and after one another. What they come to is told row by row: a stored row carries the
values of the last of those that address it, and one that none of them addresses is as it was.
-/

namespace TableAccess

open Attempt (Ends)

namespace BulkUpdate

variable {b : BulkUpdate} {t : StoredTable} {row mid image : StoredRow} {given last : RowValues}
  {rows first second : List RowValues} {x y : Content}

/-- Whether a row of a bulk update addresses a stored row. -/
def addresses (b : BulkUpdate) (t : StoredTable) (given : RowValues) (row : StoredRow) : Bool :=
  (Truth.all (b.keys.map fun key => Database.keyTruth t row key (valueAt given key))).holds

def assigning (b : BulkUpdate) (given : RowValues) : List (Assignment Cell) :=
  b.assignments.map fun a => a.map fun key => .ofValue (valueAt given key)

/-- Whether every assignment replaces what was there. -/
def Plain (b : BulkUpdate) : Prop := ∀ a ∈ b.assignments, a.increment = false

/-- Whether no column that is set is a key column under another of its names. -/
def SparesKeys (b : BulkUpdate) (t : StoredTable) : Prop :=
  ∀ key ∈ b.keys, Concern.changes t (b.assignments.map (·.column)) key = false

/-- The last of several rows of a bulk update that addresses a stored row. -/
def lastWriter? (b : BulkUpdate) (t : StoredTable) (rows : List RowValues) (row : StoredRow) :
    Option RowValues :=
  rows.reverse.find? fun given => b.addresses t given row

/-- What rows of a bulk update one after the other leave of a stored row: what the last of them
that addresses it makes of it. -/
def settled (b : BulkUpdate) (t : StoredTable) (rows : List RowValues) (row : StoredRow) :
    StoredRow :=
  match b.lastWriter? t rows row with
  | some last => t.revised (b.assigning last) row
  | none => row

/-- Rows whose values can be stored wherever they are addressed. -/
def Accepted (b : BulkUpdate) (t : StoredTable) (rows : List RowValues) (row : StoredRow) : Prop :=
  ∀ given ∈ rows, b.addresses t given row = true →
    t.updatedRow (b.assigning given) row = .ok (t.revised (b.assigning given) row)

/-! ## One row -/

theorem columns_assigning (b : BulkUpdate) (given : RowValues) :
    (b.assigning given).map (·.column) = b.assignments.map (·.column) :=
  Assignment.columns_map _ b.assignments

theorem plain_assigning (plain : b.Plain) (given : RowValues) :
    ∀ a ∈ b.assigning given, a.increment = false :=
  List.forall_mem_map.mpr plain

/-- A bulk update that replaces cells of a table as it is described spares its keys. -/
theorem sparesKeys_of_describe {snapshot : Snapshot} {name : String} {keys : List String}
    {size : Nat} (compiled : compile snapshot name rows keys size = .ok (some b)) (plain : b.Plain)
    (described : snapshot.resolve name = .ok t.definition.describe) (apart : t.definition.Apart) :
    b.SparesKeys t := by
  obtain ⟨_, columns, found, _, rfl, _, _, _, assigned⟩ := of_compile compiled
  cases described.symm.trans found
  have known := keys_of_compile compiled described
  -- an assignment is to a column that is no key, by exactly its name
  have set (a : Assignment String) (listed : a ∈ b.assignments) :
      t.definition.describe.hasColumn a.column = true ∧ a.column ∉ b.keys := by
    obtain ⟨entry, member, suffix, split, increment, _⟩ := Assignment.of_ofKeys assigned a listed
    obtain ⟨key, kept, rfl⟩ := List.mem_map.mp member
    cases suffix with
    | some suffix => simp [plain a listed] at increment
    | none =>
        refine ⟨Table.hasColumn_of_splitKey split, ?_⟩
        rw [Table.eq_of_splitKey split]
        simpa using (List.mem_filter.mp kept).2
  intro key listed
  refine StoredTable.changes_of_described apart
    (List.forall_mem_map.mpr fun a member => (set a member).1) (known key listed) fun member => ?_
  obtain ⟨a, assigning, rfl⟩ := List.mem_map.mp member
  exact (set a assigning).2 listed

/-- What a row of a bulk update makes of a stored row does not show in what is addressed. -/
theorem addresses_updatedRow (apart : t.definition.Apart) (fits : row.Fits t.definition)
    (spared : b.SparesKeys t) (ended : t.updatedRow (b.assigning given) row = .ok mid)
    (later : RowValues) : b.addresses t later mid = b.addresses t later row := by
  unfold addresses
  refine congrArg (fun truths => (Truth.all truths).holds) (List.map_congr_left fun key listed => ?_)
  have unchanged := spared key listed
  rw [← columns_assigning b given] at unchanged
  have same := StoredTable.cellAt_updatedRow_of_unchanged apart fits ended unchanged
  simp only [Database.keyTruth, same]

theorem lastWriter?_append (b : BulkUpdate) (t : StoredTable) (first second : List RowValues)
    (row : StoredRow) : b.lastWriter? t (first ++ second) row =
      (b.lastWriter? t second row).or (b.lastWriter? t first row) := by
  simp [lastWriter?]

theorem of_lastWriter? (found : b.lastWriter? t rows row = some last) :
    last ∈ rows ∧ b.addresses t last row = true :=
  ⟨List.mem_reverse.mp (List.mem_of_find?_eq_some found),
    List.find?_some (p := fun given => b.addresses t given row) found⟩

/-- Rows after one that addresses a stored row come to what they come to with that one before
them. -/
theorem settled_cons (apart : t.definition.Apart) (fits : row.Fits t.definition) (plain : b.Plain)
    (spared : b.SparesKeys t)
    (ended : t.updatedRow (b.assigning given) row = .ok mid)
    (addressed : b.addresses t given row = true) (accepted : b.Accepted t rows mid) :
    b.settled t rows mid = b.settled t (given :: rows) row ∧ b.Accepted t (given :: rows) row := by
  have addresses_eq := addresses_updatedRow apart fits spared ended
  have updated (later : RowValues) :
      t.updatedRow (b.assigning later) mid = t.updatedRow (b.assigning later) row :=
    StoredTable.updatedRow_updatedRow apart fits
      ((columns_assigning b later).trans (columns_assigning b given).symm)
      (plain_assigning plain later) ended
  have same : b.lastWriter? t rows mid = b.lastWriter? t rows row := by
    simp only [lastWriter?, addresses_eq]
  constructor
  · have whole : b.lastWriter? t (given :: rows) row =
        (b.lastWriter? t rows row).or (some given) := by
      simp [lastWriter?, addressed]
    unfold settled
    rw [whole, same]
    cases found : b.lastWriter? t rows row with
    | none => exact (StoredTable.revised_eq ended).symm
    | some last =>
        obtain ⟨listed, held⟩ := of_lastWriter? found
        have stored := accepted last listed ((addresses_eq last).trans held)
        exact (StoredTable.revised_eq ((updated last).symm.trans stored)).symm
  · refine List.forall_mem_cons.mpr ⟨fun _ => ?_, fun later listed held => ?_⟩
    · rw [ended, StoredTable.revised_eq ended]
    · have stored := accepted later listed ((addresses_eq later).trans held)
      rw [updated] at stored
      rw [stored, StoredTable.revised_eq stored]

/-- A row that does not address a stored row does not count for it. -/
theorem settled_cons_of_neg (unaddressed : ¬ b.addresses t given row = true)
    (accepted : b.Accepted t rows row) :
    b.settled t rows row = b.settled t (given :: rows) row ∧ b.Accepted t (given :: rows) row := by
  constructor
  · simp [settled, lastWriter?, unaddressed]
  · exact List.forall_mem_cons.mpr ⟨fun held => absurd held unaddressed, accepted⟩

/-- All rows after some of them come to what they come to alone. -/
theorem settled_append_of_subset (subset : first ⊆ second) (row : StoredRow) :
    b.settled t (first ++ second) row = b.settled t second row := by
  unfold settled
  rw [lastWriter?_append]
  cases found : b.lastWriter? t second row with
  | some last => rfl
  | none =>
      have unaddressed : b.lastWriter? t first row = none := by
        rw [lastWriter?, List.find?_eq_none] at found ⊢
        intro given listed
        exact found given (List.mem_reverse.mpr (subset (List.mem_reverse.mp listed)))
      rw [unaddressed]
      rfl

/-! ## Runs -/

/-- The update by one row of a bulk update replaces the stored rows that it addresses. -/
theorem of_rowChange {n : Nat} (sound : x.database.Sound)
    (ended : (b.rowChange given).outcome x = (.ok n, y)) :
    ∃ t r, x.database.table? b.table = some t ∧
      (∀ a ∈ b.assignments, t.definition.hasColumn a.column = true) ∧
      y.database = x.database.replaceTable { t with rows := r } ∧
      ({ t with rows := r } : StoredTable).Sound ∧
      (∀ row ∈ t.rows, b.addresses t given row = true →
        t.updatedRow (b.assigning given) row = .ok (t.revised (b.assigning given) row)) ∧
      r.Perm (t.rows.map fun row =>
        if b.addresses t given row then t.revised (b.assigning given) row else row) := by
  unfold rowChange at ended
  rw [Attempt.outcome_bind, Attempt.outcome_of] at ended
  cases prepared : x.database.prepareBulk b with
  | error fault => simp [prepared] at ended
  | ok _ =>
      rw [prepared] at ended
      obtain ⟨_, _, rest⟩ := bind_eq_ok_iff.mp prepared
      obtain ⟨_, _, rest⟩ := bind_eq_ok_iff.mp rest
      obtain ⟨t, target, rest⟩ := bind_eq_ok_iff.mp rest
      obtain ⟨_, assigned, _⟩ := bind_eq_ok_iff.mp rest
      have found := Database.target_eq_ok_iff.mp target
      have updated : (Change.updateKeyed b given).Ends x _ _ :=
        Change.updateWhere_ends sound found (StoredTable.perm_inUpdateOrder _ _ _ _ _)
      obtain ⟨_, r, reached, whole, each, images⟩ := updated.holds_ok ended
      refine ⟨t, r, found, fun a listed => ?_, reached, whole, each, images⟩
      have known := forM_eq_ok assigned a listed
      split at known
      · assumption
      · cases known

/-- What rows of a bulk update one after the other leave behind. -/
theorem settled_of_rowByRow (sound : x.database.Sound) (plain : b.Plain)
    (run : RowByRow b.rowChange rows x y) (found : x.database.table? b.table = some t)
    (spared : b.SparesKeys t) :
    ∃ r, y.database = x.database.replaceTable { t with rows := r } ∧
      ({ t with rows := r } : StoredTable).Sound ∧
      (∀ row ∈ t.rows, b.Accepted t rows row) ∧ r.Perm (t.rows.map (b.settled t rows)) := by
  have whole : t.Sound := sound.tables t (Database.of_table? found).1
  induction run generalizing t with
  | none x =>
      have member := (Database.of_table? found).1
      refine ⟨t.rows, (sound.replaceTable_self member).symm, whole, ?_, ?_⟩
      · exact fun _ _ => List.forall_mem_nil _
      · have same : t.rows.map (b.settled t []) = t.rows := List.map_id _
        rw [same]
  | @next given rest n x y z first later ih =>
      obtain ⟨t', r, here, _, reached, kept, each, images⟩ := of_rowChange sound first
      cases found.symm.trans here
      have there := Database.table?_replaceTable found r
      rw [← reached] at there
      obtain ⟨last, left, settled, accepted, perm⟩ :=
        ih (reached ▸ sound.replaceTable kept) there spared kept
      rw [reached, Database.replaceTable_replaceTable] at left
      -- the rows of the table as the first row of the bulk update leaves them
      have step (row : StoredRow) (member : row ∈ t.rows) :
          b.settled t rest (if b.addresses t given row then t.revised (b.assigning given) row
            else row) = b.settled t (given :: rest) row ∧ b.Accepted t (given :: rest) row := by
        have listed := images.mem_iff.mpr (List.mem_map_of_mem member)
        have after := accepted _ listed
        by_cases held : b.addresses t given row = true
        · rw [if_pos held] at after ⊢
          exact settled_cons whole.apart (whole.fits row member) plain spared
            (each row member held) held after
        · rw [if_neg held] at after ⊢
          exact settled_cons_of_neg held after
      refine ⟨last, left, settled, fun row member => (step row member).2, ?_⟩
      refine perm.trans ((images.map _).trans (.of_eq ?_))
      rw [List.map_map]
      exact List.map_congr_left fun row member => (step row member).1

/-- A bulk update that runs for some row finds the table and its columns. -/
theorem known_of_rowByRow (sound : x.database.Sound) (nonempty : rows ≠ [])
    (run : RowByRow b.rowChange rows x y) : ∃ t, x.database.table? b.table = some t ∧
      ∀ a ∈ b.assignments, t.definition.hasColumn a.column = true := by
  cases run with
  | none x => exact absurd rfl nonempty
  | next first later =>
      obtain ⟨t, _, found, known, _⟩ := of_rowChange sound first
      exact ⟨t, found, known⟩

/-! ## What rows carry -/

/-- A stored row after rows of a bulk update: if any of these addresses it, it carries in the set
columns the values of the last one, and otherwise it is as it was; so are all other columns. -/
structure Carries (b : BulkUpdate) (t : StoredTable) (rows : List RowValues)
    (row image : StoredRow) : Prop where
  unaddressed : (∀ given ∈ rows, b.addresses t given row = false) → image = row
  set : ∀ before last after, rows = before ++ last :: after → b.addresses t last row = true →
    (∀ later ∈ after, b.addresses t later row = false) →
    ∀ others a more, b.assignments = others ++ a :: more →
      Concern.changes t (more.map (·.column)) a.column = false →
      t.cellAt image a.column =
        (t.definition.typeOf a.column).stored (.ofValue (valueAt last a.operand))
  kept : ∀ column, Concern.changes t (b.assignments.map (·.column)) column = false →
    t.cellAt image column = t.cellAt row column
  number : (∀ a ∈ b.assignments, t.definition.namesNumber a.column = false) →
    image.number = row.number

theorem carries_settled (apart : t.definition.Apart) (fits : row.Fits t.definition)
    (plain : b.Plain) (known : ∀ a ∈ b.assignments, t.definition.hasColumn a.column = true)
    (accepted : b.Accepted t rows row) : b.Carries t rows row (b.settled t rows row) := by
  have updated (last : RowValues) (found : b.lastWriter? t rows row = some last) :
      t.updatedRow (b.assigning last) row = .ok (b.settled t rows row) := by
    obtain ⟨listed, held⟩ := of_lastWriter? found
    simp only [settled, found]
    exact accepted last listed held
  constructor
  · intro none_addresses
    have nobody : b.lastWriter? t rows row = none := by
      simpa [lastWriter?] using none_addresses
    simp only [settled, nobody]
  · intro before last after split held later others a more parts apart_more
    have newest : b.lastWriter? t rows row = some last := by
      have none_later : after.reverse.find? (fun given => b.addresses t given row) = none := by
        simpa using later
      simp [lastWriter?, split, none_later, held]
    have ended := updated last newest
    have listed : a ∈ b.assignments := parts ▸ by simp
    unfold assigning at ended
    rw [parts, List.map_append, List.map_cons] at ended
    have columns : (more.map fun a => a.map fun key => Cell.ofValue (valueAt last key)).map
        (·.column) = more.map (·.column) := Assignment.columns_map _ more
    refine (StoredTable.cellAt_updatedRow_of_assigned apart ended (known a listed)
      (columns ▸ apart_more)).trans ?_
    simp [StoredTable.assigned, Assignment.map, plain a listed]
  · intro column unchanged
    cases found : b.lastWriter? t rows row with
    | none => simp only [settled, found]
    | some last =>
        rw [← columns_assigning b last] at unchanged
        exact StoredTable.cellAt_updatedRow_of_unchanged apart fits (updated last found) unchanged
  · intro unnumbered
    cases found : b.lastWriter? t rows row with
    | none => simp only [settled, found]
    | some last =>
        exact StoredTable.number_updatedRow (updated last found) (List.forall_mem_map.mpr unnumbered)

end BulkUpdate

/-- Changes by rows come to the same database whatever is owed at their beginning. -/
theorem RowByRow.indifferent {α ρ : Type} {change : ρ → Change α}
    (each : ∀ row, (change row).Indifferent) {rows : List ρ} {x y other : Content}
    (run : RowByRow change rows x y) (same : x.database = other.database) :
    ∃ z, RowByRow change rows other z ∧ z.database = y.database := by
  induction run generalizing other with
  | none x => exact ⟨other, .none other, same.symm⟩
  | @next row rest v x y z first later ih =>
      obtain ⟨result, database⟩ := each row x other same
      rw [first] at result database
      cases here : (change row).outcome other with
      | mk ended reached =>
          rw [here] at result database
          cases result
          obtain ⟨last, run, left⟩ := ih database
          exact ⟨last, .next here run, left⟩

end TableAccess
