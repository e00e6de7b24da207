import TableAccess.Proofs.Filter.Meaning
import TableAccess.Proofs.Mutation.Pieces
import TableAccess.Proofs.Mutation.Placeholders

/-!
# Bulk updates lose no row

The batches of a bulk update are the value sets of its rows, one set for each row in their order,
cut into pieces of which only the last one may be shorter. There are batches only if all rows are
in order: a key that is null or columns that differ, in whichever row, refuse the whole request.
-/

namespace TableAccess.BulkUpdate

variable {s : Snapshot} {name : String} {rows : List RowValues} {keys : List String}
  {chunkSize : Nat}

/-- The batches of what a bulk update compiled to; if that is nothing, there are none. -/
def allBatches (b : Option BulkUpdate) (chunkSize : Nat) : List Batch :=
  (b.map (·.batches chunkSize)).getD []

/-- Batches that partition rows: as many as chunks are needed, each of them full unless it is the
last one, with one text. Their value sets are those of the rows, in order; a set consists of the
values that are set, in the order of their keys, and of the values of the keys as they were
given. -/
structure Partition (chunkSize : Nat) (keys : List String) (rows : List RowValues)
    (batches : List Batch) : Prop where
  count : batches.length = (rows.length + chunkSize - 1) / chunkSize
  sizes : ∀ (k : Nat) batch, batches[k]? = some batch → 0 < batch.size ∧ batch.size ≤ chunkSize ∧
    (k + 1 < batches.length → batch.size = chunkSize)
  shared : ∀ batch ∈ batches, ∀ other ∈ batches, batch.sql = other.sql
  sets : (batches.flatMap Batch.paramSets).map (List.map some) =
    rows.map fun row =>
      (setEntries keys row).map (fun entry => some entry.2) ++ keys.map row.get?

/-- Rows that may be updated in bulk: all of them have the same names, among which are the keys,
never null, and another one. -/
structure Uniform (keys : List String) (rows : List RowValues) : Prop where
  even : ∀ row ∈ rows, ∀ other ∈ rows, ∀ key, row.contains key = other.contains key
  addressed : ∀ row ∈ rows, ∀ key ∈ keys, ∃ value, row.get? key = some value ∧ value ≠ .null
  filled : ∀ row ∈ rows, ∃ key, row.contains key = true ∧ key ∉ keys

theorem partition_batches (b : BulkUpdate) (positive : 0 < chunkSize)
    (bound : ∀ row ∈ b.rows, (b.paramsOf row).map some =
      (setEntries keys row).map (fun entry => some entry.2) ++ keys.map row.get?) :
    Partition chunkSize keys b.rows (b.batches chunkSize) where
  count := by rw [batches, List.length_map, chunks, length_pieces positive]
  sizes := by
    intro k batch found
    rw [batches, List.getElem?_map] at found
    obtain ⟨chunk, piece, rfl⟩ := Option.map_eq_some_iff.mp found
    have lengths := length_of_getElem?_pieces positive piece
    rw [batches, List.length_map, Batch.size, batchOf, List.length_map]
    exact lengths
  shared := by
    have same : ∀ batch ∈ b.batches chunkSize, batch.sql = b.sql :=
      List.forall_mem_map.mpr fun _ _ => rfl
    intro batch cut other also
    rw [same batch cut, same other also]
  sets := by
    have sets : (b.batches chunkSize).flatMap Batch.paramSets = b.rows.map b.paramsOf := by
      rw [batches, List.flatMap_map, ← flatten_pieces positive b.rows, List.map_flatten]
      rfl
    rw [sets, List.map_map]
    exact List.map_congr_left bound

theorem partition_of_compile {b : Option BulkUpdate}
    (accepted : compile s name rows keys chunkSize = .ok b) :
    Partition chunkSize keys rows (allBatches b chunkSize) := by
  have positive := positive_of_compile accepted
  cases b with
  | none =>
      obtain rfl := compile_eq_none accepted
      refine ⟨?_, nofun, nofun, rfl⟩
      symm
      apply Nat.div_eq_of_lt
      simp only [List.length_nil]
      omega
  | some b =>
      obtain rfl := rows_eq_of_compile accepted
      exact b.partition_batches positive fun row listed => paramsOf_of_compile accepted listed

theorem uniform_of_compile {b : Option BulkUpdate}
    (accepted : compile s name rows keys chunkSize = .ok b) : Uniform keys rows := by
  obtain ⟨t, _, _, _, _, compiles⟩ := compile_eq_ok_iff.mp accepted
  cases compiles with
  | nothing => exact ⟨nofun, nofun, nofun⟩
  | @rows first rest as held even filled assigned addressed =>
      have same : ∀ row ∈ first :: rest, row.keys = first.keys :=
        List.forall_mem_cons.mpr ⟨rfl, even⟩
      constructor
      · intro row listed other also
        exact NameMap.keys_eq_iff.mp ((same row listed).trans (same other also).symm)
      · intro row listed key given
        have here : key ∈ row.keys := same row listed ▸ held key given
        exact ⟨valueAt row key, get?_eq_some_valueAt here, addressed row listed key given⟩
      · intro row listed
        obtain ⟨key, member⟩ := List.exists_mem_of_ne_nil _ filled
        obtain ⟨here, other⟩ := List.mem_filter.mp member
        refine ⟨key, NameMap.contains_iff_mem_keys.mpr (same row listed ▸ here), ?_⟩
        simpa using other

/-- A bulk update that is accepted has uniform rows, which its batches partition. A null key or
names that differ, in any of the rows, refuse it. -/
theorem batches_partition_rows (s : Snapshot) (name : String) (rows : List RowValues)
    (keys : List String) (chunkSize : Nat) :
    (∀ b, compile s name rows keys chunkSize = .ok b →
      Partition chunkSize keys rows (allBatches b chunkSize) ∧ Uniform keys rows) ∧
    ((∃ row ∈ rows, ∃ key ∈ keys, row.get? key = some .null) ∨
      (∃ row ∈ rows, ∃ other ∈ rows, ∃ key, row.contains key ≠ other.contains key) →
      ∃ e, compile s name rows keys chunkSize = .error e) := by
  constructor
  · intro b accepted
    exact ⟨partition_of_compile accepted, uniform_of_compile accepted⟩
  · intro faulty
    cases compiled : compile s name rows keys chunkSize with
    | error e => exact ⟨e, rfl⟩
    | ok b =>
        have uniform := uniform_of_compile compiled
        rcases faulty with ⟨row, listed, key, given, null⟩ | ⟨row, listed, other, also, key, differ⟩
        · obtain ⟨value, held, proper⟩ := uniform.addressed row listed key given
          cases null.symm.trans held
          exact absurd rfl proper
        · exact absurd (uniform.even row listed other also key) differ

/-! ## Three items in chunks of two -/

def threeItems : List RowValues :=
  [.ofList [("id", .int 1), ("status", .text "a")], .ofList [("id", .int 2), ("status", .null)],
    .ofList [("id", .int 3), ("status", .text "c")]]

def untoldItem : List RowValues := threeItems ++ [.ofList [("id", .null), ("status", .text "d")]]

theorem batches_partition_rows_items :
    (∃ b, compile (Snapshot.ofList [items]) "items" threeItems ["id"] 2 = .ok (some b) ∧
      (b.batches 2).length = 2 ∧ Partition 2 ["id"] threeItems (b.batches 2)) ∧
    ∃ e, compile (Snapshot.ofList [items]) "items" untoldItem ["id"] 2 = .error e := by
  obtain ⟨partitions, _⟩ :=
    batches_partition_rows (Snapshot.ofList [items]) "items" threeItems ["id"] 2
  obtain ⟨_, refuses⟩ :=
    batches_partition_rows (Snapshot.ofList [items]) "items" untoldItem ["id"] 2
  constructor
  · refine ⟨_, rfl, ?_⟩
    obtain ⟨partition, _⟩ := partitions _ rfl
    exact ⟨partition.count, partition⟩
  · apply refuses
    left
    exact ⟨_, List.mem_append_right _ List.mem_cons_self, "id", List.mem_cons_self, rfl⟩

end TableAccess.BulkUpdate
