import TableAccess.Proofs.Filter.Meaning
import TableAccess.Proofs.Mutation.Names
import TableAccess.Proofs.Mutation.Placeholders

/-!
# Inserts say what their rows hold

Only the first row of an insert is looked at for the names of columns, and every row lists its
values in its own order. Since the rows have the same names, and maps with the same names list
them in one order, each value nevertheless stands for the column that it has in its own row: rows
can be told from the statement and the values that are bound to it.
-/

namespace TableAccess

open Sql (Fragment Binds)

variable {s : Snapshot} {name : String}

namespace Insert

/-- The statement of an insert names its table, and then its columns in their order. -/
theorem namesIn?_batch (i : Insert) : Sql.namesIn? i.batch.sql = some (i.table :: i.columns) := by
  have known : Sql.Orderly (fun _ => True) i.fragments := orderly trivial fun _ _ => trivial
  have written : i.fragments.flatMap Fragment.names = i.table :: i.columns := by
    unfold fragments
    split
    · rename_i empty
      rw [List.isEmpty_iff.mp empty]
      rfl
    · simp [Fragment.names_separated, Fragment.names, List.flatMap_map]
  rw [batch, known.namesIn?_render, written]

/-- A row can be told from an insert and the values that are bound for it: the columns in the
statement and the values pair up to the entries of the row, and the values stand where they
belong. -/
structure Tells (i : Insert) (columns : List String) (row : RowValues) (params : List Value) :
    Prop where
  even : columns.length = params.length
  paired : columns.zip params = row.entries
  binds : Binds i.batch.sql params (filledRow i.table row)

/-- Every row of an accepted insert can be told from its own values. -/
theorem tells_of_compile {rows : NewRows} {i : Insert} (accepted : compile s name rows = .ok i)
    {row : RowValues} (listed : row ∈ rows.toList) : i.Tells i.columns row row.values := by
  have same : row.keys = i.columns := (of_compile accepted).2 row listed
  have binds := (binds_of_compile accepted).2 row listed
  constructor
  · rw [← same, NameMap.keys, NameMap.values, List.length_map, List.length_map]
  · rw [← same, NameMap.zip_keys_values]
  · exact binds

/-- An insert is accepted exactly if there is a row, the names in the first row are columns of the
table, and every other row has the same names. -/
theorem exists_compile_iff (s : Snapshot) (name : String) (rows : NewRows) :
    (∃ i, compile s name rows = .ok i) ↔
      ∃ t first rest, s.resolve name = .ok t ∧ rows.toList = first :: rest ∧
        (∀ key, first.contains key = true → t.hasColumn key = true) ∧
        ∀ row ∈ rest, ∀ key, row.contains key = first.contains key := by
  simp only [NameMap.contains_iff_mem_keys, ← NameMap.keys_eq_iff]
  constructor
  · rintro ⟨i, accepted⟩
    obtain ⟨t, first, rest, found, listed, known, even, _⟩ := compile_eq_ok_iff.mp accepted
    exact ⟨t, first, rest, found, listed, known, even⟩
  · rintro ⟨t, first, rest, found, listed, known, even⟩
    exact ⟨_, compile_eq_ok_iff.mpr ⟨t, first, rest, found, listed, known, even, rfl⟩⟩

/-- An insert is accepted exactly if its table exists, there is a row, the names in the first row
are columns of the table, and every other row has the same names. The statement of an accepted
insert names the table and then columns without repetition; there is one list of values for each
row, in order, and every row can be told from its own. Rows without names take every default. -/
theorem compile_is_lossless (s : Snapshot) (name : String) (rows : NewRows) :
    ((∃ i, compile s name rows = .ok i) ↔
      ∃ t first rest, s.resolve name = .ok t ∧ rows.toList = first :: rest ∧
        (∀ key, first.contains key = true → t.hasColumn key = true) ∧
        ∀ row ∈ rest, ∀ key, row.contains key = first.contains key) ∧
    ∀ i, compile s name rows = .ok i → ∃ t columns, s.resolve name = .ok t ∧ i.table = t.name ∧
      Sql.namesIn? i.batch.sql = some (t.name :: columns) ∧ columns.Nodup ∧
      i.batch.paramSets.length = rows.toList.length ∧
      (∀ (k : Nat) row, rows.toList[k]? = some row →
        ∃ params, i.batch.paramSets[k]? = some params ∧ i.Tells columns row params) ∧
      (columns = [] →
        i.batch.sql = "INSERT INTO " ++ String.ofList (Sql.quoted t.name) ++ " DEFAULT VALUES" ∧
        i.batch.paramSets = List.replicate rows.toList.length []) := by
  refine ⟨exists_compile_iff s name rows, fun i accepted => ?_⟩
  obtain ⟨t, first, rest, found, listed, _, _, whole⟩ := compile_eq_ok_iff.mp accepted
  have named : i.table = t.name := by rw [whole]
  have columns : i.columns = first.keys := by rw [whole]
  have sets : i.batch.paramSets = rows.toList.map NameMap.values := (of_compile accepted).1
  refine ⟨t, i.columns, found, named, ?names, ?once, ?each, ?told, ?defaults⟩
  case names =>
    rw [← named]
    exact i.namesIn?_batch
  case once =>
    rw [columns]
    exact first.nodup_keys
  case each => rw [sets, List.length_map]
  case told =>
    intro k row here
    refine ⟨row.values, ?_, tells_of_compile accepted (List.mem_of_getElem? here)⟩
    rw [sets, List.getElem?_map, here, Option.map_some]
  case defaults =>
    intro none
    constructor
    · rw [batch, fragments, none, named]
      apply String.toList_injective
      simp [Fragment.render, Fragment.text]
    · rw [sets]
      apply List.eq_replicate_iff.mpr
      refine ⟨List.length_map _, List.forall_mem_map.mpr fun row member => ?_⟩
      have told := tells_of_compile accepted member
      apply List.eq_nil_of_length_eq_zero
      rw [← told.even, none]
      rfl

end Insert

/-! ## Two new items -/

/-- Two items, the entries of which are listed in different orders. -/
def newItems : NewRows :=
  .many [.ofList [("status", .text "new"), ("id", .int 1)],
    .ofList [("id", .int 2), ("status", .null)]]

theorem compile_is_lossless_newItems :
    ∃ i columns, Insert.compile (Snapshot.ofList [items]) "items" newItems = .ok i ∧
      Sql.namesIn? i.batch.sql = some ("items" :: columns) ∧
      ∀ (k : Nat) row, newItems.toList[k]? = some row →
        ∃ params, i.batch.paramSets[k]? = some params ∧ columns.zip params = row.entries := by
  obtain ⟨accepted_iff, lossless⟩ :=
    Insert.compile_is_lossless (Snapshot.ofList [items]) "items" newItems
  have resolved : (Snapshot.ofList [items]).resolve "items" = .ok items := by rfl
  obtain ⟨i, accepted⟩ : ∃ i, Insert.compile (Snapshot.ofList [items]) "items" newItems = .ok i := by
    apply accepted_iff.mpr
    refine ⟨items, _, _, resolved, rfl, ?_, ?_⟩
    · intro key held
      have named := NameMap.contains_iff_mem_keys.mp held
      have columns : ∀ key ∈ ["id", "status"], items.hasColumn key = true := by decide
      exact columns key named
    · intro row later
      obtain rfl := List.mem_singleton.mp later
      exact NameMap.keys_eq_iff.mp rfl
  obtain ⟨t, columns, found, _, named, _, _, told, _⟩ := lossless i accepted
  cases resolved.symm.trans found
  refine ⟨i, columns, accepted, named, fun k row here => ?_⟩
  obtain ⟨params, bound, tells⟩ := told k row here
  exact ⟨params, bound, tells.paired⟩

end TableAccess
