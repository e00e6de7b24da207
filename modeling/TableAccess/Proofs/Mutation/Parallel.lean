import TableAccess.Proofs.Mutation.Placeholders
import TableAccess.Proofs.Query.Parallel

/-!
# Parallel changes

Two changes that differ only in the values of their rows and filters are refused alike or have
the same text, with related values in the same places. In a bulk update the keys of a row must
be null in both requests or in neither.
-/

namespace TableAccess

open Sql (Fragment)

variable {related : Value → Value → Prop} {s : Snapshot} {name : String} {t : Table}

/-! ## Rows -/

/-- Maps with the same names and related values. -/
def NameMap.Parallel {α β : Type} (related : α → β → Prop) (m : NameMap α) (other : NameMap β) :
    Prop :=
  List.Forall₂ (fun entry another => entry.1 = another.1 ∧ related entry.2 another.2)
    m.entries other.entries

namespace NameMap.Parallel

variable {row other : RowValues}

theorem keys_eq (parallel : row.Parallel related other) : row.keys = other.keys :=
  (map_eq_of_forall₂ (parallel.imp fun _ _ same => same.1.symm)).symm

theorem isEmpty_eq (parallel : row.Parallel related other) : row.isEmpty = other.isEmpty := by
  rw [Bool.eq_iff_iff, isEmpty, isEmpty, List.isEmpty_iff_length_eq_zero,
    List.isEmpty_iff_length_eq_zero, List.Forall₂.length_eq parallel]

theorem values (parallel : row.Parallel related other) :
    List.Forall₂ related row.values other.values :=
  List.rel_map (fun _ _ same => same.2) parallel

theorem weaken {weaker : Value → Value → Prop} (parallel : row.Parallel related other)
    (weaken : ∀ v ∈ row.values, ∀ w ∈ other.values, related v w → weaker v w) :
    row.Parallel weaker other := by
  refine forall₂_of_mem parallel fun entry here another there same => ⟨same.1, ?_⟩
  exact weaken _ (List.mem_map_of_mem here) _ (List.mem_map_of_mem there) same.2

/-- Parallel rows have related values under each of their names. -/
theorem valueAt (parallel : row.Parallel related other) {key : String} (held : key ∈ row.keys) :
    related (BulkUpdate.valueAt row key) (BulkUpdate.valueAt other key) := by
  obtain ⟨entry, found, rfl⟩ := List.mem_map.mp held
  obtain ⟨another, there, same, values⟩ := exists_of_forall₂ parallel found
  rw [BulkUpdate.valueAt_of_mem found, same, BulkUpdate.valueAt_of_mem there]
  exact values

end NameMap.Parallel

/-! ## Assignments -/

structure Assignment.Parallel {α β : Type} (related : α → β → Prop) (a : Assignment α)
    (b : Assignment β) : Prop where
  column : a.column = b.column
  increment : a.increment = b.increment
  operand : related a.operand b.operand

namespace Assignment

variable {α β : Type} {bound : α → β → Prop}

theorem Parallel.fragments {a : Assignment α} {b : Assignment β} (parallel : a.Parallel bound b) :
    Sql.Parallel bound a.fragments b.fragments := by
  obtain ⟨column, increment, operand⟩ := parallel
  unfold Assignment.fragments
  rw [column, increment]
  split
  · exact .cons (.name _) (.cons (.verbatim _) (.cons (.name _) (.cons (.verbatim _)
      (.cons (.slot operand) .nil))))
  · exact .cons (.name _) (.cons (.verbatim _) (.cons (.slot operand) .nil))

/-- Reading a key does not depend on the operand. -/
theorem ofKey_agree (t : Table) (key : String) {a : α} {b : β} (operands : bound a b) :
    Agree (Parallel bound) (ofKey t key a) (ofKey t key b) := by
  have first := ofKey_map t key () fun _ => a
  have second := ofKey_map t key () fun _ => b
  rw [first, second]
  cases ofKey t key () with
  | error e => exact .error e
  | ok blank => exact .ok ⟨rfl, rfl, operands⟩

theorem ofKeys_agree (t : Table) {list : List (String × α)} {others : List (String × β)}
    (each : List.Forall₂ (fun entry another => entry.1 = another.1 ∧ bound entry.2 another.2)
      list others) :
    Agree (List.Forall₂ (Parallel bound)) (ofKeys t list) (ofKeys t others) := by
  induction each with
  | nil => exact .ok .nil
  | cons head _ ih =>
      obtain ⟨key, operands⟩ := head
      rw [ofKeys, ofKeys, key]
      exact (ofKey_agree t _ operands).bind fun _ _ first _ _ =>
        ih.bind_pure fun _ _ later => .cons first later

end Assignment

/-! ## Updates and deletions -/

theorem Filter.Parallel.isEmpty_eq {asks : String → Prop} {f g : Filter}
    (parallel : Filter.Parallel asks related f g) : f.isEmpty = g.isEmpty := by
  cases parallel with
  | entries each =>
      cases each with
      | nil => rfl
      | cons first later => rfl

/-- The guard treats parallel filters alike. -/
theorem Filter.Parallel.requiredPredicate {f g : Filter} {operation : Operation}
    (found : s.resolve name = .ok t)
    (parallel : Filter.Parallel (s.AsksNull name) related f g) :
    Agree (Predicate.Parallel related) (t.requiredPredicate f operation)
      (t.requiredPredicate g operation) := by
  unfold Table.requiredPredicate
  refine .refuse (by rw [parallel.isEmpty_eq]) fun _ => ?_
  refine (parallel.compile (Snapshot.asksNull_of_resolve found)).bind fun _ _ same _ _ => ?_
  exact .refuse (by rw [same.isTrivial_eq]) fun _ => .ok same

/-- Parallel updates are refused alike or have parallel statements. -/
theorem Update.compile_agree {set others : RowValues} {f g : Filter}
    (rows : set.Parallel related others)
    (filters : Filter.Parallel (s.AsksNull name) related f g) :
    Agree (fun u v => Statement.Parallel related u.statement v.statement)
      (compile s name set f) (compile s name others g) := by
  unfold compile
  refine .bind_same fun t found => .refuse (by rw [rows.isEmpty_eq]) fun _ => ?_
  refine (filters.requiredPredicate found).bind fun _ _ condition _ _ => ?_
  refine (Assignment.ofKeys_agree t rows).bind_pure fun _ _ assigned => ?_
  refine Statement.parallel_ofFragments t.name ?_
  have each := List.rel_map (fun _ _ same => Assignment.Parallel.fragments same) assigned
  have head := Sql.Parallel.append (.cons (.verbatim "UPDATE ") (.cons (.name t.name)
    (.cons (.verbatim " SET ") .nil))) (Sql.Parallel.separated ", " each)
  exact (head.append (.cons (.verbatim " WHERE ") .nil)).append condition.fragments

/-- Parallel deletions are refused alike or have parallel statements. -/
theorem Delete.compile_agree {f g : Filter}
    (filters : Filter.Parallel (s.AsksNull name) related f g) :
    Agree (fun d e => Statement.Parallel related d.statement e.statement)
      (compile s name f) (compile s name g) := by
  unfold compile
  refine .bind_same fun t found => ?_
  refine (filters.requiredPredicate found).bind_pure fun _ _ condition => ?_
  refine Statement.parallel_ofFragments t.name ?_
  exact Sql.Parallel.append (.cons (.verbatim "DELETE FROM ") (.cons (.name t.name)
    (.cons (.verbatim " WHERE ") .nil))) condition.fragments

/-! ## Inserts -/

/-- New rows with the same columns and related values. -/
inductive NewRows.Parallel (related : Value → Value → Prop) : NewRows → NewRows → Prop where
  | single {row other : RowValues} (parallel : row.Parallel related other) :
      Parallel related (.single row) (.single other)
  | many {rows others : List RowValues}
      (each : List.Forall₂ (NameMap.Parallel related) rows others) :
      Parallel related (.many rows) (.many others)

namespace NewRows.Parallel

variable {rows others : NewRows}

theorem toList (parallel : rows.Parallel related others) :
    List.Forall₂ (NameMap.Parallel related) rows.toList others.toList := by
  cases parallel with
  | single parallel => exact .cons parallel .nil
  | many each => exact each

theorem isSingle_eq (parallel : rows.Parallel related others) :
    rows.isSingle = others.isSingle := by
  cases parallel with
  | single parallel => rfl
  | many each => rfl

end NewRows.Parallel

/-- Rows with the same names are checked alike. -/
theorem checkColumns_eq {columns : List String} {index : Nat} {rows others : List RowValues}
    (each : List.Forall₂ (NameMap.Parallel related) rows others) :
    checkColumns name columns index rows = checkColumns name columns index others := by
  induction each generalizing index with
  | nil => rfl
  | cons head _ ih => rw [checkColumns, checkColumns, head.keys_eq, ih]

/-- Parallel inserts are refused alike or have parallel batches. -/
theorem Insert.compile_agree {rows others : NewRows} (parallel : rows.Parallel related others) :
    Agree (fun i j => i.batch.Parallel related j.batch ∧ i.reportsLastId = j.reportsLastId)
      (compile s name rows) (compile s name others) := by
  have single := parallel.isSingle_eq
  have each := parallel.toList
  unfold compile
  refine .bind_same fun t _ => ?_
  generalize rows.toList = list at each ⊢
  generalize others.toList = alternatives at each ⊢
  cases each with
  | nil => exact .error _
  | cons head tail =>
      dsimp only
      rw [head.keys_eq, checkColumns_eq tail, single]
      refine .bind_same fun columns _ => .bind_same fun _ _ => .ok ⟨⟨rfl, rfl, ?_⟩, rfl⟩
      exact List.rel_map (fun _ _ same => same.values) (List.Forall₂.cons head tail)

/-! ## Bulk updates -/

namespace BulkUpdate

/-- Rows with the same columns and related values, whose keys are null in both or in neither. -/
structure RowParallel (keys : List String) (related : Value → Value → Prop)
    (row other : RowValues) : Prop where
  entries : row.Parallel related other
  nullity : ∀ key ∈ keys, row.get? key = some .null ↔ other.get? key = some .null

variable {keys : List String} {row other : RowValues}

theorem get?_isSome_iff {key : String} : (row.get? key).isSome = true ↔ key ∈ row.keys :=
  NameMap.contains_iff_mem_keys

theorem RowParallel.null_iff (parallel : RowParallel keys related row other) {key : String}
    (given : key ∈ keys) :
    (row.get? key).getD .null = .null ↔ (other.get? key).getD .null = .null := by
  have nullity := parallel.nullity key given
  have held : (row.get? key).isSome = true ↔ (other.get? key).isSome = true := by
    rw [get?_isSome_iff, get?_isSome_iff, parallel.entries.keys_eq]
  cases here : row.get? key with
  | none =>
      rw [here] at held
      have absent : other.get? key = none := by simpa using held
      rw [absent]
  | some v =>
      rw [here] at nullity held
      obtain ⟨w, there⟩ := Option.isSome_iff_exists.mp (held.mp rfl)
      rw [there] at nullity ⊢
      simpa using nullity

theorem keysNotNull_eq {index : Nat} {checked : List String}
    (within : ∀ key ∈ checked, key ∈ keys) (parallel : RowParallel keys related row other) :
    keysNotNull index row checked = keysNotNull index other checked := by
  induction checked with
  | nil => rfl
  | cons key rest ih =>
      obtain ⟨here, later⟩ := List.forall_mem_cons.mp within
      rw [keysNotNull, keysNotNull, ih later]
      simp only [parallel.null_iff here]

theorem allKeysNotNull_eq {index : Nat} {rows others : List RowValues}
    (each : List.Forall₂ (RowParallel keys related) rows others) :
    allKeysNotNull keys index rows = allKeysNotNull keys index others := by
  induction each generalizing index with
  | nil => rfl
  | cons head _ ih =>
      rw [allKeysNotNull, allKeysNotNull, ih, keysNotNull_eq (fun _ found => found) head]

theorem containsKeys_eq {checked : List String} (same : row.keys = other.keys) :
    containsKeys name row checked = containsKeys name other checked := by
  induction checked with
  | nil => rfl
  | cons key rest ih =>
      have held : row.contains key = other.contains key := by
        rw [Bool.eq_iff_iff, NameMap.contains_iff_mem_keys, NameMap.contains_iff_mem_keys, same]
      rw [containsKeys, containsKeys, ih, held]

variable {rows others : List RowValues} {chunkSize : Nat}

/-- Parallel bulk updates are refused alike or differ in their rows only. -/
theorem compile_agree (each : List.Forall₂ (RowParallel keys related) rows others) :
    Agree (Option.Rel fun b c => c = { b with rows := others } ∧ b.rows = rows)
      (compile s name rows keys chunkSize) (compile s name others keys chunkSize) := by
  unfold compile
  refine .bind_same fun t _ => .refuse Iff.rfl fun _ => .refuse Iff.rfl fun _ => ?_
  refine .bind_same fun _ _ => ?_
  cases each with
  | nil => exact .ok .none
  | @cons row other rest later head tail =>
      have same := head.entries.keys_eq
      have even : checkColumns name row.keys 1 rest = checkColumns name row.keys 1 later :=
        checkColumns_eq (tail.imp fun _ _ parallel => parallel.entries)
      have keyed : allKeysNotNull keys 0 (row :: rest) = allKeysNotNull keys 0 (other :: later) :=
        allKeysNotNull_eq (.cons head tail)
      dsimp only
      rw [containsKeys_eq same, ← same, even, keyed]
      refine .bind_same fun _ _ => .bind_same fun _ _ => .refuse Iff.rfl fun _ => ?_
      refine .bind_same fun assignments _ => .bind_same fun _ _ => .ok (.some ?_)
      exact ⟨rfl, rfl⟩

theorem forall₂_piecesOf {α β : Type} {bound : α → β → Prop} (size fuel : Nat) {items : List α}
    {others : List β} (each : List.Forall₂ bound items others) :
    List.Forall₂ (List.Forall₂ bound) (piecesOf size fuel items) (piecesOf size fuel others) := by
  induction fuel generalizing items others with
  | zero => exact .nil
  | succ fuel ih =>
      cases each with
      | nil => exact .nil
      | cons head tail =>
          have whole := List.Forall₂.cons head tail
          exact .cons (List.forall₂_take size whole) (ih (List.forall₂_drop size whole))

/-- A row of an accepted bulk update has every value that is bound for it. -/
theorem paramsOf_agree {b : BulkUpdate}
    (accepted : compile s name rows keys chunkSize = .ok (some b)) (listed : row ∈ rows)
    (parallel : row.Parallel related other) :
    List.Forall₂ related (b.paramsOf row) (b.paramsOf other) := by
  obtain ⟨t, columns, _, _, rfl, _, even, held, assigned⟩ := of_compile accepted
  have values (row : RowValues) : b.paramsOf row =
      b.assignments.map (fun a => valueAt row a.operand) ++ b.keys.map (valueAt row) :=
    (b.writes row).bound
  have operands := Assignment.operands_of_ofKeys assigned
  have set : ∀ a ∈ b.assignments, a.operand ∈ row.keys := by
    intro a found
    have member : a.operand ∈ b.assignments.map Assignment.operand := List.mem_map_of_mem found
    rw [operands, List.map_map] at member
    obtain ⟨key, kept, same⟩ := List.mem_map.mp member
    rw [even row listed, ← same]
    exact (List.mem_filter.mp kept).1
  rw [values, values]
  refine List.rel_append ?assigned ?keyed
  case assigned =>
    rw [List.forall₂_map_left_iff, List.forall₂_map_right_iff]
    exact List.forall₂_same.mpr fun a found => parallel.valueAt (set a found)
  case keyed =>
    rw [List.forall₂_map_left_iff, List.forall₂_map_right_iff]
    exact List.forall₂_same.mpr fun key given => parallel.valueAt (even row listed ▸ held key given)

/-- Parallel bulk updates are refused alike or have parallel batches. -/
theorem batches_agree (each : List.Forall₂ (RowParallel keys related) rows others) :
    Agree (Option.Rel fun b c =>
        List.Forall₂ (Batch.Parallel related) (b.batches chunkSize) (c.batches chunkSize))
      (compile s name rows keys chunkSize) (compile s name others keys chunkSize) := by
  refine (compile_agree each).mono fun first second accepted _ same => ?_
  cases same with
  | none => exact .none
  | @some b c same =>
      obtain ⟨rest, own⟩ := same
      have bound : List.Forall₂ (fun row other =>
          List.Forall₂ related (b.paramsOf row) (b.paramsOf other)) rows others :=
        forall₂_of_mem each fun row here other _ parallel =>
          paramsOf_agree accepted here parallel.entries
      have length : b.rows.length = others.length := by rw [own, each.length_eq]
      refine .some ?_
      rw [rest, batches, batches, chunks, chunks, pieces, pieces, length, own,
        List.forall₂_map_left_iff, List.forall₂_map_right_iff]
      refine (forall₂_piecesOf chunkSize others.length bound).imp fun piece another each => ?_
      refine ⟨rfl, rfl, ?_⟩
      rw [batchOf, batchOf, List.forall₂_map_left_iff, List.forall₂_map_right_iff]
      exact each

end BulkUpdate

end TableAccess
