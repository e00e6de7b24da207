import TableAccess.Proofs.Mutation.Compilation
import TableAccess.Proofs.Predicate.Placeholders

/-!
# Placeholders of changes

An update binds what it sets before the values of its condition, an insert the values of each
row in the order of the columns, and a bulk update for each row what is set before the keys.
-/

namespace TableAccess

open Sql (Filled Fragment Writes Binds)

variable {α β : Type} {s : Snapshot} {name : String}

/-! ## Assignments -/

namespace Assignment

def filled (a : Assignment α) : Filled α :=
  if a.increment then
    Filled.name a.column ++ Filled.text " = " ++ Filled.name a.column ++ Filled.text " + "
      ++ [.inr a.operand]
  else Filled.name a.column ++ Filled.text " = " ++ [.inr a.operand]

theorem writes (value : α → β) (a : Assignment α) :
    Writes value a.fragments [value a.operand] (a.map value).filled := by
  have column : Writes value [.name a.column] [] (Filled.name a.column) := .name a.column
  have operand : Writes value [.slot a.operand] [value a.operand] [.inr (value a.operand)] :=
    .slot a.operand
  unfold fragments filled map
  cases a.increment with
  | true =>
      simpa using column.append ((Writes.verbatim " = ").append
        (column.append ((Writes.verbatim " + ").append operand)))
  | false => simpa using column.append ((Writes.verbatim " = ").append operand)

/-- Assignments have the operands of their entries, in order. -/
theorem operands_of_ofKeys {t : Table} {list : List (String × α)} {as : List (Assignment α)}
    (read : ofKeys t list = .ok as) : as.map operand = list.map (·.2) := by
  induction list generalizing as with
  | nil =>
      cases read
      rfl
  | cons head rest ih =>
      obtain ⟨a, first, others⟩ := bind_eq_ok_iff.mp read
      obtain ⟨later, next, whole⟩ := bind_eq_ok_iff.mp others
      cases whole
      have kept : a.operand = head.2 := by
        -- without its operand the entry is read in the same way
        have blank := ofKey_map t head.1 () fun _ => head.2
        rw [first] at blank
        cases read : ofKey t head.1 () with
        | error e => rw [read] at blank; cases blank
        | ok b => rw [read] at blank; cases blank; rfl
      rw [List.map_cons, kept, ih next, List.map_cons]

end Assignment

def filledUpdate (table : String) (as : List (Assignment α)) (condition : Filled α) : Filled α :=
  Filled.text "UPDATE " ++ Filled.name table ++ Filled.text " SET "
    ++ Filled.joined ", " (as.map Assignment.filled) ++ Filled.text " WHERE " ++ condition

/-- The fragments of an update bind the operands of its assignments, then what the fragments of
its condition bind. -/
theorem writes_update {value : α → β} (table : String) (as : List (Assignment α))
    {clause : List (Fragment α)} {values : List β} {condition : Filled β}
    (writes : Writes value clause values condition) :
    Writes value
      ([.verbatim "UPDATE ", .name table, .verbatim " SET "]
        ++ Fragment.separated ", " (as.map Assignment.fragments) ++ .verbatim " WHERE " :: clause)
      (as.map (fun a => value a.operand) ++ values)
      (filledUpdate table (as.map (Assignment.map value)) condition) := by
  have assigned : Writes value (Fragment.separated ", " (as.map Assignment.fragments))
      (as.flatMap fun a => [value a.operand])
      (Filled.joined ", " (as.map fun a => (a.map value).filled)) :=
    .separated (.verbatim ", ") fun a _ => a.writes value
  have whole := (Writes.verbatim "UPDATE ").append ((Writes.name table).append
    ((Writes.verbatim " SET ").append (assigned.append
      ((Writes.verbatim " WHERE ").append writes))))
  simpa [filledUpdate, Function.comp_def, ← List.map_eq_flatMap] using whole

/-! ## Updates and deletions -/

namespace Update

def filled (u : Update) : Filled Value := filledUpdate u.table u.assignments u.condition.filled

theorem writes (u : Update) :
    Writes id u.fragments (u.assignments.map Assignment.operand ++ u.condition.values)
      u.filled := by
  have whole := writes_update u.table u.assignments u.condition.writes
  have same : Assignment.map (id : Value → Value) = id := rfl
  rw [same, List.map_id] at whole
  simpa [fragments, headFragments, filled] using whole

/-- An accepted update binds the values that are set, in the order of the keys, before those of
its condition. -/
theorem binds_of_compile {set : RowValues} {f : Filter} {u : Update}
    (accepted : compile s name set f = .ok u) :
    ∃ t, s.resolve name = .ok t ∧ t.compile f = .ok u.condition ∧
      Assignment.ofKeys t set.entries = .ok u.assignments ∧
      u.statement.params = set.values ++ u.condition.values ∧
      Binds u.statement.sql u.statement.params u.filled := by
  obtain ⟨t, found, compiled, assigned, _⟩ := of_compile accepted
  have bound := u.writes.bound
  rw [List.map_id, Assignment.operands_of_ofKeys assigned] at bound
  have binds := u.writes.binds
  rw [← u.writes.bound, List.map_id] at binds
  exact ⟨t, found, compiled, assigned, bound, binds⟩

end Update

namespace Delete

def filled (d : Delete) : Filled Value :=
  Filled.text "DELETE FROM " ++ Filled.name d.table ++ Filled.text " WHERE " ++ d.condition.filled

theorem writes (d : Delete) : Writes id d.fragments d.condition.values d.filled := by
  have whole := (Writes.verbatim "DELETE FROM ").append ((Writes.name d.table).append
    ((Writes.verbatim " WHERE ").append d.condition.writes))
  simpa [fragments, headFragments, filled] using whole

/-- An accepted deletion binds the values of its condition. -/
theorem binds_of_compile {f : Filter} {d : Delete} (accepted : compile s name f = .ok d) :
    ∃ t, s.resolve name = .ok t ∧ t.compile f = .ok d.condition ∧
      d.statement.params = d.condition.values ∧
      Binds d.statement.sql d.statement.params d.filled := by
  obtain ⟨t, found, compiled, _⟩ := of_compile accepted
  have bound := d.writes.bound
  rw [List.map_id] at bound
  have binds := d.writes.binds
  rw [← bound] at binds
  exact ⟨t, found, compiled, bound, binds⟩

end Delete

/-! ## Rows -/

namespace BulkUpdate

theorem valueAt_of_mem {row : RowValues} {entry : String × Value} (found : entry ∈ row.entries) :
    valueAt row entry.1 = entry.2 := by
  rw [valueAt, NameMap.get?_eq_some_of_mem found, Option.getD_some]

theorem get?_eq_some_valueAt {row : RowValues} {key : String} (held : key ∈ row.keys) :
    row.get? key = some (valueAt row key) := by
  obtain ⟨entry, found, rfl⟩ := List.mem_map.mp held
  rw [valueAt_of_mem found]
  exact NameMap.get?_eq_some_of_mem found

/-- A row consists of its keys with the values at them. -/
theorem entries_eq_map (row : RowValues) :
    row.entries = row.keys.map fun key => (key, valueAt row key) := by
  rw [NameMap.keys, List.map_map]
  symm
  calc row.entries.map _ = row.entries.map id :=
        List.map_congr_left fun entry found => by
          rw [Function.comp_apply, valueAt_of_mem found, id_eq]
    _ = row.entries := List.map_id _

theorem values_eq_map (row : RowValues) : row.values = row.keys.map (valueAt row) := by
  rw [NameMap.values, entries_eq_map row, List.map_map]
  rfl

end BulkUpdate

/-! ## Inserts -/

namespace Insert

def filledRow (table : String) (row : RowValues) : Filled Value :=
  if row.keys.isEmpty then
    Filled.text "INSERT INTO " ++ Filled.name table ++ Filled.text " DEFAULT VALUES"
  else
    Filled.text "INSERT INTO " ++ Filled.name table ++ Filled.text " ("
      ++ Filled.joined ", " (row.keys.map Filled.name) ++ Filled.text ") VALUES ("
      ++ Filled.joined ", " (row.values.map fun v => [.inr v]) ++ Filled.text ")"

theorem writes {i : Insert} {row : RowValues} (even : row.keys = i.columns) :
    Writes (BulkUpdate.valueAt row) i.fragments row.values (filledRow i.table row) := by
  rw [BulkUpdate.values_eq_map row]
  unfold fragments filledRow
  rw [BulkUpdate.values_eq_map row, even]
  cases empty : i.columns.isEmpty with
  | true =>
      have none : i.columns = [] := List.isEmpty_iff.mp empty
      simpa [none] using (Writes.verbatim "INSERT INTO ").append
        ((Writes.name i.table).append (.verbatim " DEFAULT VALUES"))
  | false =>
      have columns : Writes (BulkUpdate.valueAt row)
          (Fragment.separated ", " (i.columns.map fun column => [.name column])) []
          (Filled.joined ", " (i.columns.map Filled.name)) :=
        .names (.verbatim ", ") i.columns
      have slots : Writes (BulkUpdate.valueAt row)
          (Fragment.separated ", " (i.columns.map fun column => [.slot column]))
          (i.columns.map (BulkUpdate.valueAt row))
          (Filled.joined ", "
            (i.columns.map fun column => [.inr (BulkUpdate.valueAt row column)])) :=
        .slots (.verbatim ", ") i.columns
      have whole := (Writes.verbatim "INSERT INTO ").append ((Writes.name i.table).append
        ((Writes.verbatim " (").append (columns.append
          ((Writes.verbatim ") VALUES (").append (slots.append (.verbatim ")"))))))
      simpa [Function.comp_def] using whole

/-- Every row of an accepted insert binds its own values, in the order of the columns. -/
theorem binds_of_compile {rows : NewRows} {i : Insert} (accepted : compile s name rows = .ok i) :
    i.batch.paramSets = rows.toList.map NameMap.values ∧
      ∀ row ∈ rows.toList, Binds i.batch.sql row.values (filledRow i.table row) := by
  obtain ⟨listed, even⟩ := of_compile accepted
  exact ⟨listed, fun row here => (writes (even row here)).binds⟩

end Insert

/-! ## Bulk updates -/

theorem mem_of_mem_piecesOf {size fuel : Nat} {items piece : List α}
    (cut : piece ∈ piecesOf size fuel items) {item : α} (here : item ∈ piece) : item ∈ items := by
  induction fuel generalizing items with
  | zero => cases cut
  | succ fuel ih =>
      cases items with
      | nil => cases cut
      | cons first rest =>
          rcases List.mem_cons.mp cut with rfl | later
          · exact List.mem_of_mem_take here
          · exact List.mem_of_mem_drop (ih later)

namespace BulkUpdate

def filledKeys (keys : List String) (row : RowValues) : Filled Value :=
  Filled.joined " AND " (keys.map fun key =>
    Filled.name key ++ Filled.text " = " ++ [.inr (valueAt row key)])

/-- The entries of a row that are set: those whose keys do not address it. -/
def setEntries (keys : List String) (row : RowValues) : List (String × Value) :=
  row.entries.filter fun entry => !keys.contains entry.1

theorem writes_keys (keys : List String) (row : RowValues) :
    Writes (valueAt row)
      (Fragment.separated " AND " (keys.map fun key => [.name key, .verbatim " = ", .slot key]))
      (keys.map (valueAt row)) (filledKeys keys row) := by
  have each (key : String) : Writes (valueAt row) [.name key, .verbatim " = ", .slot key]
      [valueAt row key] (Filled.name key ++ Filled.text " = " ++ [.inr (valueAt row key)]) := by
    simpa using (Writes.name key).append ((Writes.verbatim " = ").append (.slot key))
  rw [← List.flatMap_singleton' (keys.map (valueAt row)), List.flatMap_map]
  exact .separated (.verbatim " AND ") fun key _ => each key

theorem writes (b : BulkUpdate) (row : RowValues) :
    Writes (valueAt row) b.fragments
      (b.assignments.map (fun a => valueAt row a.operand) ++ b.keys.map (valueAt row))
      (filledUpdate b.table (b.assignments.map (Assignment.map (valueAt row)))
        (filledKeys b.keys row)) :=
  writes_update b.table b.assignments (writes_keys b.keys row)

/-- A row binds the operands of the assignments before its keys. -/
theorem paramsOf_eq (b : BulkUpdate) (row : RowValues) :
    b.paramsOf row =
      b.assignments.map (fun a => valueAt row a.operand) ++ b.keys.map (valueAt row) :=
  (b.writes row).bound

/-- The assignments of a row are those of its own entries. -/
theorem ofKeys_setEntries {t : Table} {keys : List String} {row : RowValues}
    {as : List (Assignment String)}
    (assigned : Assignment.ofKeys t
      ((row.keys.filter fun key => !keys.contains key).map fun key => (key, key)) = .ok as) :
    Assignment.ofKeys t (setEntries keys row) = .ok (as.map (Assignment.map (valueAt row))) := by
  have entries : setEntries keys row =
      ((row.keys.filter fun key => !keys.contains key).map fun key => (key, key)).map
        fun entry => (entry.1, valueAt row entry.2) := by
    rw [setEntries, entries_eq_map row, List.filter_map, List.map_map]
    rfl
  rw [entries, Assignment.ofKeys_map, assigned]
  rfl

/-- A row of an accepted bulk update binds the values that are set, in the order of their keys,
before those of the key columns, in the order in which these were given. -/
theorem paramsOf_of_compile {rows : List RowValues} {keys : List String} {chunkSize : Nat}
    {b : BulkUpdate} (accepted : compile s name rows keys chunkSize = .ok (some b))
    {row : RowValues} (listed : row ∈ rows) :
    (b.paramsOf row).map some =
      (setEntries keys row).map (fun entry => some entry.2) ++ keys.map row.get? := by
  obtain ⟨t, columns, _, _, rfl, rfl, even, held, assigned⟩ := of_compile accepted
  obtain rfl := even row listed
  have operands := Assignment.operands_of_ofKeys (ofKeys_setEntries assigned)
  rw [List.map_map] at operands
  have keyed : b.keys.map row.get? = (b.keys.map (valueAt row)).map some := by
    rw [List.map_map]
    exact List.map_congr_left fun key given => get?_eq_some_valueAt (held key given)
  rw [paramsOf_eq, List.map_append, keyed]
  congr 1
  have wrapped := congrArg (List.map some) operands
  simpa [Function.comp_def, Assignment.map] using wrapped

/-- Every value set of an accepted bulk update belongs to one of the rows, and its values stand
where they belong. -/
theorem binds_of_compile {rows : List RowValues} {keys : List String} {chunkSize : Nat}
    {b : BulkUpdate} (accepted : compile s name rows keys chunkSize = .ok (some b))
    {batch : Batch} (cut : batch ∈ b.batches chunkSize) {params : List Value}
    (here : params ∈ batch.paramSets) :
    ∃ row ∈ rows, ∃ t as, s.resolve name = .ok t ∧
      Assignment.ofKeys t (setEntries keys row) = .ok as ∧
      params.map some = (setEntries keys row).map (fun entry => some entry.2) ++ keys.map row.get? ∧
      Binds batch.sql params (filledUpdate t.name as (filledKeys keys row)) := by
  obtain ⟨t, columns, found, named, rfl, rfl, even, held, assigned⟩ := of_compile accepted
  obtain ⟨chunk, piece, rfl⟩ := List.mem_map.mp cut
  obtain ⟨row, member, rfl⟩ := List.mem_map.mp here
  have listed : row ∈ b.rows := mem_of_mem_piecesOf piece member
  obtain rfl := even row listed
  refine ⟨row, listed, t, _, found, ofKeys_setEntries assigned, paramsOf_of_compile accepted listed,
    ?_⟩
  have binds := (b.writes row).binds
  rw [← paramsOf_eq, named] at binds
  exact binds

end BulkUpdate

end TableAccess
