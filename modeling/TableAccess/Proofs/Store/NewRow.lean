import TableAccess.Proofs.NameMap
import TableAccess.Proofs.Store.Changes

/-!
# New rows

What a new row of a table shows: in the column that is another name for the row number just that, in
any other what was given for the column, as a column of its kind stores it, or else the default. The
number is the one that is given, and a fresh one if none is given or if it is null. A row that is
made of values by column holds each of them.
-/

namespace TableAccess

def RowValues.cells (row : RowValues) : List (String × Cell) :=
  row.entries.map fun entry => (entry.1, .ofValue entry.2)

/-- Among the cells of a row, in whatever order, the one is found that has the only name of a
kind. -/
theorem RowValues.find?_cells {row : RowValues} {list : List (String × Cell)}
    {entry : String × Value} {p : String → Bool}
    (same : ∀ given, given ∈ list ↔ given ∈ row.cells) (member : entry ∈ row.entries)
    (here : p entry.1 = true) (only : ∀ name ∈ row.keys, p name = true → name = entry.1) :
    list.find? (fun given => p given.1) = some (entry.1, .ofValue entry.2) := by
  cases found : list.find? fun given => p given.1 with
  | none =>
      have listed := (same _).mpr (List.mem_map_of_mem member)
      exact absurd here (List.find?_eq_none.mp found _ listed)
  | some given =>
      have held := List.find?_some found
      obtain ⟨own, listed, rfl⟩ := List.mem_map.mp
        ((same given).mp (List.mem_of_find?_eq_some found))
      have named := only own.1 (List.mem_map_of_mem listed) held
      rw [List.inj_on_of_nodup_map row.nodup_keys listed member named]

namespace StoredTable

variable {t : StoredTable} {given : List (String × Cell)} {row : StoredRow} {name : String}
  {cell : Cell} {i : Nat} {c : StoredColumn}

def newCell (given : List (String × Cell)) (c : StoredColumn) : Cell :=
  c.type.stored
    (((given.find? fun entry => Text.same entry.1 c.name).map (·.2)).getD c.default)

def newNumber (t : StoredTable) (given : List (String × Cell)) : Except Fault Int64 :=
  if (t.givenNumber given).isNull then .ok t.nextNumber else rowNumber (t.givenNumber given)

theorem newRow_eq (t : StoredTable) (given : List (String × Cell)) :
    t.newRow given = (t.newNumber given).map fun number =>
      t.numbered number (t.definition.columns.map (newCell given)) := by
  unfold newRow newNumber
  dsimp only
  split
  · rfl
  · cases rowNumber (t.givenNumber given) <;> rfl

theorem newRow_eq_ok_iff : t.newRow given = .ok row ↔
    ∃ number, t.newNumber given = .ok number ∧
      t.numbered number (t.definition.columns.map (newCell given)) = row := by
  rw [newRow_eq]
  cases t.newNumber given with
  | ok number => simp [Except.map]
  | error fault => simp [Except.map]

/-- What a new row shows in a column. -/
theorem cellAt_newRow (apart : t.definition.Apart) (made : t.newRow given = .ok row)
    (here : t.definition.columns[i]? = some c) :
    t.cellAt row c.name =
      if t.definition.namesNumber c.name then .integer row.number else newCell given c := by
  have found := Definition.position?_name apart here
  obtain ⟨number, _, rfl⟩ := newRow_eq_ok_iff.mp made
  rw [cellAt_of_position? found, at_numbered (by simp), number_numbered]
  simp only [Definition.namesNumber_iff found]
  simp [here]

theorem newCell_of_find?
    (found : given.find? (fun entry => Text.same entry.1 c.name) = some (name, cell)) :
    newCell given c = c.type.stored cell := by
  rw [newCell, found]
  rfl

/-- A stored row holds the values of a row: a column for which there is a value shows what a column
of its kind stores for it. For the row number null is no value. -/
def Holds (t : StoredTable) (values : RowValues) (stored : StoredRow) : Prop :=
  ∀ entry ∈ values.entries,
    (t.definition.namesNumber entry.1 = true → (Cell.ofValue entry.2).isNull = false) →
      t.cellAt stored entry.1 = (t.definition.typeOf entry.1).stored (.ofValue entry.2)

/-- A row that is made of values for described columns holds them. -/
theorem holds_newRow {values : RowValues} (apart : t.definition.Apart)
    (known : ∀ key ∈ values.keys, t.definition.describe.hasColumn key = true)
    (made : t.newRow values.cells = .ok row) : t.Holds values row := by
  rintro ⟨name, value⟩ member given
  dsimp only at given ⊢
  have here := known name (List.mem_map_of_mem member)
  by_cases named : t.definition.namesNumber name = true
  · -- the number was given, since it is not null
    have asked : t.givenNumber values.cells = .ofValue value := by
      unfold givenNumber
      rw [RowValues.find?_cells (fun _ => List.mem_reverse) member named fun other key numbers =>
        Definition.eq_of_namesNumber apart (known other key) here numbers named]
      rfl
    have stands := Definition.hasColumn_of_describe here
    rw [cellAt_of_namesNumber (fits_newRow made) stands named,
      Definition.typeOf_of_namesNumber apart stands named]
    obtain ⟨number, counted, rfl⟩ := newRow_eq_ok_iff.mp made
    rw [newNumber, asked, given named] at counted
    rw [number_numbered, ColumnType.stored, asWhole_of_rowNumber counted]
  · obtain ⟨i, c, at_column, rfl⟩ := Definition.of_describe_hasColumn here
    have position := Definition.position?_name apart at_column
    have found := RowValues.find?_cells (p := fun other => Text.same other c.name)
      (fun _ => Iff.rfl) member (Text.same_iff.mpr rfl) fun other key same =>
        Definition.eq_of_same apart (known other key) here same
    rw [cellAt_newRow apart made at_column, if_neg named, newCell_of_find? found]
    simp [Definition.typeOf, Definition.place?, position, at_column]

end StoredTable

end TableAccess
