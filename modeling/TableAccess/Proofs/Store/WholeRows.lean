import TableAccess.Proofs.Query.Compilation
import TableAccess.Proofs.Store.Listing
import TableAccess.Proofs.Store.Preparing
import TableAccess.Proofs.Store.Regular

/-!
# Whole rows

A query that names no columns shows the rows of a table as they are stored: all of those that
satisfy its condition, each once, with all of their cells. In which order they come depends on how
the table is visited.
-/

namespace TableAccess

/-- The query of all columns of the rows of a table that satisfy a filter, in some order. -/
def Query.whole (table : String) (filter : Filter) (order : Option String)
    (direction : Direction) : Query :=
  { table, filter, order, direction }

/-- A checked query of all columns of a table, without a limit. -/
structure Select.Whole (t : Table) (s : Select) : Prop where
  table : s.table = t.name
  projections : s.projections = t.columns.map fun c => .column t.name c.name
  distinct : s.distinct = false
  join : s.join = none
  groupBy : s.groupBy = []
  limit : s.limit = 0
  offset : s.offset = 0

theorem Query.whole_of_plan {snapshot : Snapshot} {table : String} {filter : Filter}
    {order : Option String} {direction : Direction} {s : Select}
    (accepted : (whole table filter order direction).plan snapshot = .ok s) :
    ∃ t, snapshot.resolve table = .ok t ∧ t.compile filter = .ok s.condition ∧ s.Whole t := by
  obtain ⟨t, joined, planned⟩ := planned_of_plan accepted
  cases planned.resolved
  have all : s.projections = t.columns.map fun c => .column t.name c.name := by
    rw [← Except.ok.inj planned.projections]
    simp
  exact ⟨t, planned.found, planned.condition, planned.table, all, planned.distinct,
    (Except.ok.inj planned.join).symm, planned.groupBy, planned.limit, planned.offset⟩

namespace StoredTable

variable {t : StoredTable} {row : StoredRow}

/-- Rows that show those rows of a table that satisfy a condition: each once, with all of its cells,
in whatever order. -/
def Shown (t : StoredTable) (condition : Predicate) (rows : List Row) : Prop :=
  (rows.map (·.values)).Perm
    ((t.rows.filter (t.satisfies condition)).map fun row => row.cells.map Cell.toValue)

/-- A row that fits its table shows its cells in the columns, in their order. -/
theorem cells_eq (apart : t.definition.Apart) (fits : row.Fits t.definition) :
    (t.definition.columns.map fun c => t.cellAt row c.name) = row.cells := by
  refine List.ext_getElem (by simp [fits.complete]) fun i inside there => ?_
  have within : i < t.definition.columns.length := by simpa using inside
  have here : t.definition.columns[i]? = some t.definition.columns[i] :=
    List.getElem?_eq_getElem within
  rw [List.getElem_map, cellAt_of_position? (Definition.position?_name apart here)]
  simp [StoredRow.at, there]

end StoredTable

namespace Select.Whole

variable {t : StoredTable} {s : Select} {rows : List Row} {db : Database}

theorem isGrouped (whole : s.Whole t.definition.describe) : s.isGrouped = false := by
  simp [Select.isGrouped, whole.groupBy, whole.projections]

/-- A row of the table is shown with all of its cells. -/
theorem cells_rowOf (sound : t.Sound) (whole : s.Whole t.definition.describe) {row : StoredRow}
    (member : row ∈ t.rows) : (s.rowOf ⟨⟨t, false⟩, none⟩ ⟨row, none⟩).cells = row.cells := by
  have own : Text.same t.definition.name s.table = true := by
    rw [whole.table]
    exact Text.same_iff.mpr rfl
  have projections : s.projections =
      t.definition.columns.map fun c => .column t.definition.name c.name := by
    rw [whole.projections, Definition.describe, List.map_map]
    rfl
  rw [← StoredTable.cells_eq sound.apart (sound.fits row member)]
  simp [Select.rowOf, projections, Select.cellOf, Sources.cellAt, own]

/-- The rows of the table that satisfy the condition are shown, each once. -/
theorem allRows (sound : t.Sound) (whole : s.Whole t.definition.describe) :
    ∃ shown, s.allRows ⟨⟨t, false⟩, none⟩ = .ok shown ∧
      shown.Perm ((t.rows.filter (t.satisfies s.condition)).map (·.cells)) := by
  obtain ⟨rows, lists, answered⟩ := Select.exists_lists s ⟨⟨t, false⟩, none⟩ whole.isGrouped
  refine ⟨_, answered, ((lists.all whole.distinct).map (·.cells)).trans (.of_eq ?_)⟩
  have pairings : s.pairings ⟨⟨t, false⟩, none⟩ =
      (t.rows.filter (t.satisfies s.condition)).map fun row => ⟨row, none⟩ := by
    simp [Select.pairings, whole.join]
  rw [Select.rowsOf, pairings, List.map_map, List.map_map]
  exact List.map_congr_left fun row listed =>
    cells_rowOf sound whole (List.mem_filter.mp listed).1

end Select.Whole

namespace Database

variable {db : Database} {t : StoredTable} {s : Select} {rows : List Row}

theorem sources_whole {sources : Sources} (found : db.table? s.table = some t)
    (whole : s.Whole t.definition.describe) (prepared : db.prepareSelect s = .ok sources) :
    sources = ⟨⟨t, false⟩, none⟩ := by
  obtain ⟨first, second, _⟩ := of_prepareSelect prepared
  obtain ⟨primary, secondary⟩ := sources
  rw [whole.join] at second
  cases second
  simp only [source, found] at first
  cases first
  rfl

/-- A query of whole rows is answered with the rows of the table that satisfy its condition, each
once, with all of their cells. -/
theorem select_whole (sound : db.Sound) (found : db.table? s.table = some t)
    (whole : s.Whole t.definition.describe) (answered : db.select s = .ok rows) :
    t.Shown s.condition rows := by
  obtain ⟨sources, prepared, run⟩ := bind_eq_ok_iff.mp answered
  obtain rfl := sources_whole found whole prepared
  obtain ⟨shown, all, perm⟩ := whole.allRows (sound.tables t (of_table? found).1)
  unfold runSelect at run
  obtain ⟨_, rest⟩ := refuse_eq_ok_iff.mp run
  rw [all] at rest
  cases rest
  have unpaged : s.page shown = shown := by
    simp [Select.page, whole.limit, whole.offset]
  unfold StoredTable.Shown
  rw [unpaged, List.map_map]
  refine (perm.map (·.map Cell.toValue)).trans (.of_eq ?_)
  rw [List.map_map]
  rfl

end Database

/-! ## Shown rows -/

/-- Rows that have just the columns that were announced are shown with all of their values. -/
theorem Store.values_of_shown {columns : List String} {found rows : List Row}
    (full : ∀ row ∈ found, row.values.length = columns.length)
    (ended : shown columns found = .ok rows) : rows.map (·.values) = found.map (·.values) := by
  have each : ∀ row ∈ found, (if row.values.length < columns.length then
      .error (.invalidColumnIndex row.values.length)
      else .ok ⟨columns, row.values.take columns.length⟩ : Except Fault Row) =
        .ok ⟨columns, row.values⟩ := fun row member => by
    simp [← full row member]
  unfold shown at ended
  rw [mapM_eq_ok_map each] at ended
  cases ended
  simp

theorem StoredTable.Shown.length {t : StoredTable} {condition : Predicate} {rows : List Row}
    (shown : t.Shown condition rows) :
    rows.length = (t.rows.filter (t.satisfies condition)).length := by
  simpa using shown.length_eq

/-- A query of whole rows shows the rows of its table that satisfy its condition. -/
theorem Store.select_whole {s : Store} {lent : List Nat} (regular : s.Regular lent) (c : Nat)
    {q : Select} : (select c q).Notes c s fun rows => ∀ t, s.database.table? q.table = some t →
      q.Whole t.definition.describe → t.Shown q.condition rows := by
  refine (select_shows regular q).mono ?_
  rintro rows ⟨columns, found, counted, answered, fits⟩ t here whole
  have shown := Database.select_whole regular.database here whole answered
  have sound := regular.database.tables t (Database.of_table? here).1
  have full : ∀ row ∈ found, row.values.length = columns.length := by
    intro row member
    obtain ⟨stored, listed, same⟩ :=
      List.mem_map.mp (shown.mem_iff.mp (List.mem_map_of_mem member))
    rw [← same, List.length_map, (sound.fits stored (List.mem_filter.mp listed).1).complete, counted,
      whole.projections]
    simp [Definition.describe]
  unfold StoredTable.Shown
  rw [values_of_shown full fits]
  exact shown

end TableAccess
