import TableAccess.Proofs.Mutation.Compilation
import TableAccess.Proofs.Store.Effects
import TableAccess.Proofs.Store.NewRow

/-!
# Inserted rows

An insert that succeeds has put one new row after the other into its table. Each of them holds the
values that were handed in for it, and has passed the checks of the table as the rows before it had
left it, so that its number is its own.
-/

namespace TableAccess

/-! ## Rows that are numbered by a column -/

namespace Definition.NumberedBy

variable {d : Definition} {key : StoredColumn}

theorem namesNumber (keyed : d.NumberedBy key) : d.namesNumber key.name = true := by
  obtain ⟨i, position⟩ := Option.isSome_iff_exists.mp (position?_isSome keyed.mem)
  have named : d.rowidAlias? = some key.name := rowidAlias?_eq_some_iff.mpr ⟨key, keyed, rfl⟩
  simp [Definition.namesNumber, position, named, Text.same]

theorem hasColumn (keyed : d.NumberedBy key) : d.hasColumn key.name = true := by
  obtain ⟨i, position⟩ := Option.isSome_iff_exists.mp (position?_isSome keyed.mem)
  simp [Definition.hasColumn, place?, position]

end Definition.NumberedBy

namespace StoredTable

variable {t : StoredTable} {row : StoredRow} {key : StoredColumn}

/-- In a sound table just one row shows a number in the column that numbers the rows. -/
theorem Sound.filter_key (sound : t.Sound) (keyed : t.definition.NumberedBy key)
    (member : row ∈ t.rows) :
    t.rows.filter (fun other => t.cellAt other key.name = .integer row.number) = [row] := by
  have single : t.rows.filter (fun other => t.cellAt other key.name = .integer row.number) =
      t.rows.filter (· == row) := by
    refine List.filter_congr fun other listed => ?_
    rw [cellAt_of_namesNumber (sound.fits other listed) keyed.hasColumn keyed.namesNumber,
      Bool.eq_iff_iff, decide_eq_true_iff, beq_iff_eq, Cell.integer.injEq]
    exact ⟨List.inj_on_of_nodup_map sound.distinct listed member, congrArg StoredRow.number⟩
  rw [single, List.filter_beq, List.count_eq_one_of_mem (sound.distinct.of_map _) member]
  rfl

/-- A table after rows were put into it: these hold the values that they were made of, and the rows
that were there are there still. -/
structure Grown (t : StoredTable) (values : List RowValues) (new stored : List StoredRow) :
    Prop where
  sound : ({ t with rows := stored } : StoredTable).Sound
  perm : stored.Perm (new ++ t.rows)
  holds : List.Forall₂ t.Holds values new

/-- What was not there before is new. -/
theorem Grown.fresh {values : List RowValues} {new stored : List StoredRow}
    (grown : t.Grown values new stored) (member : row ∈ new) : row ∉ t.rows := by
  have distinct := (grown.perm.nodup_iff).mp (grown.sound.distinct.of_map _)
  exact fun old => (List.nodup_append.mp distinct).2.2 row member row old rfl

end StoredTable

/-! ## Rows put in one after the other -/

namespace Database

variable {db mid after : Database} {table : String} {t : StoredTable} {values : List RowValues}
  {new : List StoredRow}

/-- What rows that are put into a table one after the other make of a database. -/
inductive GainsAll (table : String) :
    List RowValues → List StoredRow → Database → Database → Prop where
  | none (db : Database) : GainsAll table [] [] db db
  | next {row : RowValues} {later : List RowValues} {first : StoredRow} {more : List StoredRow}
      {db mid after : Database} (gains : db.Gains table row.cells first mid)
      (rest : GainsAll table later more mid after) :
      GainsAll table (row :: later) (first :: more) db after

theorem Gains.of_table? {given : List (String × Cell)} {row : StoredRow}
    (gains : db.Gains table given row after) (found : db.table? table = some t) :
    t.newRow given = .ok row ∧ t.checkRow row t.rows = .ok () ∧
      after = db.replaceTable { t with rows := t.placed row t.rows } := by
  obtain ⟨own, here, made, checked, reached⟩ := gains
  cases found.symm.trans here
  exact ⟨made, checked, reached⟩

theorem GainsAll.exists_table (gains : GainsAll table values new db after) (some : values ≠ []) :
    ∃ t, db.table? table = .some t := by
  cases gains with
  | none => exact absurd rfl some
  | next first _ =>
      obtain ⟨t, found, _⟩ := first
      exact ⟨t, found⟩

/-- The rows of a table grow by those that are put in, and nothing else changes. -/
theorem GainsAll.grown (gains : GainsAll table values new db after) (sound : db.Sound)
    (found : db.table? table = some t)
    (known : ∀ row ∈ values, ∀ key ∈ row.keys, t.definition.describe.hasColumn key = true) :
    ∃ stored, after = db.replaceTable { t with rows := stored } ∧ t.Grown values new stored := by
  induction gains generalizing t with
  | none db =>
      have member := (Database.of_table? found).1
      exact ⟨t.rows, (sound.replaceTable_self member).symm, sound.tables t member, .refl _, .nil⟩
  | @next row later first more db mid after gains rest ih =>
      have whole : t.Sound := sound.tables t (Database.of_table? found).1
      obtain ⟨made, checked, rfl⟩ := gains.of_table? found
      obtain ⟨here, others⟩ := List.forall_mem_cons.mp known
      obtain ⟨stored, reached, grown⟩ := ih (sound.gains gains)
        (table?_replaceTable found (t.placed first t.rows)) others
      refine ⟨stored, reached.trans (replaceTable_replaceTable _ stored), grown.sound, ?_, ?_⟩
      · refine grown.perm.trans (.trans ?_ List.perm_middle)
        exact (t.perm_placed first t.rows).append_left more
      · exact .cons (StoredTable.holds_newRow whole.apart here made) grown.holds

end Database

/-! ## Statements -/

namespace Change

/-- The values of a row that has the columns of the insert are inserted by their columns. -/
theorem insert_values {i : Insert} {row : RowValues} (even : row.keys = i.columns) :
    insert i row.values = insertRow i.table row.cells := by
  have cells : i.columns.zip (row.values.map Cell.ofValue) = row.cells := by
    rw [← even, List.zip_map_right, NameMap.zip_keys_values]
    rfl
  rw [insert, cells]

/-- A row that is inserted is put into the table, and its number is told. -/
theorem gains_of_rowChange {i : Insert} {row : RowValues} {number : Int64} {x y : Content}
    (even : row.keys = i.columns) (ended : (i.rowChange row.values).outcome x = (.ok number, y)) :
    ∃ new, new.number = number ∧ x.database.Gains i.table row.cells new y.database := by
  obtain ⟨_, _, inserted⟩ := Form.of_alone ended
  rw [insert_values even] at inserted
  exact (insertRow_ends i.table row.cells x).holds_ok inserted

end Change

end TableAccess
