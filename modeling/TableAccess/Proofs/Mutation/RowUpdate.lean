import TableAccess.Proofs.Filter.Lists
import TableAccess.Proofs.Mutation.Guard
import TableAccess.Proofs.Mutation.Names
import TableAccess.Proofs.Mutation.Placeholders
import TableAccess.Proofs.Query.Grounded
import TableAccess.Proofs.Sql.Wholeness

/-!
# The update of a row

A row of a bulk update can be written as an update: it sets what the row has besides the keys, under
the condition that every key column has the value of the row. Whenever the bulk update is accepted,
so is this update. Both put the same names into their statements, though the update writes key
columns with their table; and their conditions differ by one in depth.
-/

namespace TableAccess

open Sql (Fragment)

variable {s : Snapshot} {name : String} {t : Table}

/-! ## Conjunctions of conditions -/

namespace Predicate

variable {α : Type} {question : α → Condition}

/-- A chain of comparisons of columns with values grows by one with each of them. -/
theorem chainDepth_conditions {list : List α} (three : ∀ a ∈ list, (question a).depth = 3)
    {before : Nat} (begun : 3 ≤ before) :
    chainDepth before (list.map fun a => condition (question a)) = before + list.length := by
  induction list generalizing before with
  | nil => rfl
  | cons a rest ih =>
      obtain ⟨here, later⟩ := List.forall_mem_cons.mp three
      rw [List.map_cons, chainDepth, if_neg (by omega), depth, here, Nat.max_eq_left begun,
        ih later (by omega), List.length_cons]
      omega

theorem depth_conj_conditions {list : List α} (nonempty : list ≠ [])
    (three : ∀ a ∈ list, (question a).depth = 3) :
    (conj (list.map fun a => condition (question a))).depth = list.length + 2 := by
  obtain ⟨first, rest, rfl⟩ := List.exists_cons_of_ne_nil nonempty
  obtain ⟨here, later⟩ := List.forall_mem_cons.mp three
  rw [conj_conditions]
  split
  · rename_i only
    rw [depth, here, only]
    rfl
  · rw [depth, List.map_cons, chainDepth, if_pos rfl, depth, here,
      chainDepth_conditions later (Nat.le_refl 3), List.length_cons]
    omega

end Predicate

theorem Condition.names_fragments (c : Condition) :
    c.fragments.flatMap Fragment.names = [c.table, c.field] := by
  have slots (vs : List Value) : (Fragment.separated ", " (vs.map fun v => [.slot v])).flatMap
      Fragment.names = [] := by
    simp [Fragment.names_separated, List.flatMap_map, Fragment.names]
  unfold fragments
  cases c.test with
  | isNull | isNotNull | value op v => rfl
  | list op vs => simp [Fragment.names, slots]

namespace Predicate

variable {α : Type} {question : α → Condition}

theorem names_conj_conditions {list : List α} (nonempty : list ≠ []) :
    (conj (list.map fun a => condition (question a))).fragments.flatMap Fragment.names =
      list.flatMap fun a => [(question a).table, (question a).field] := by
  obtain ⟨first, rest, rfl⟩ := List.exists_cons_of_ne_nil nonempty
  rw [conj_conditions]
  split
  · rename_i only
    rw [fragments, Condition.names_fragments, only]
    rfl
  · rw [fragments, partFragments_eq_map, List.map_map, List.flatMap_cons, List.flatMap_append,
      Fragment.names_separated, List.flatMap_map]
    simp [Fragment.names, fragments, Condition.names_fragments]

end Predicate

/-- What is assigned does not show in the names of an assignment. -/
theorem Assignment.names_map {α β : Type} (f : α → β) (a : Assignment α) :
    (a.map f).fragments.flatMap Fragment.names = a.fragments.flatMap Fragment.names := by
  unfold fragments map
  dsimp only
  split <;> rfl

namespace BulkUpdate

variable {rows : List RowValues} {keys : List String} {chunkSize : Nat} {b : BulkUpdate}
  {row : RowValues}

def unkeyed (keys : List String) (row : RowValues) : RowValues :=
  ⟨setEntries keys row, row.ordered.filter _⟩

def keyFilter (keys : List String) (row : RowValues) : Filter :=
  .entries (keys.map fun key => (key, .scalar (valueAt row key)))

def rowUpdate (b : BulkUpdate) (row : RowValues) : Update :=
  ⟨b.table, b.assignments.map (Assignment.map (valueAt row)), b.condition row⟩

/-- Whenever a bulk update is accepted, so is the update of each of its rows. -/
theorem compile_rowUpdate (accepted : compile s name rows keys chunkSize = .ok (some b))
    (listed : row ∈ rows) (unreserved : orKey ∉ keys) :
    Update.compile s name (unkeyed keys row) (keyFilter keys row) = .ok (b.rowUpdate row) := by
  obtain ⟨t, found, keyed, _, known, compiles⟩ := compile_eq_ok_iff.mp accepted
  cases compiles with
  | @rows first rest as held even filled assigned addressed =>
      have each : ∀ row ∈ first :: rest, row.keys = first.keys :=
        List.forall_mem_cons.mpr ⟨rfl, even⟩
      have same : row.keys = first.keys := each row listed
      have compiled : t.compile (keyFilter keys row) = .ok
          (.conj (keys.map fun key => .condition ⟨t.name, key, .eq, .value (valueAt row key)⟩)) := by
        apply Table.compile_conditions
        · rintro key member rfl
          exact unreserved member
        · intro key member
          exact Table.compileEntry_scalar (Table.parseKey_column (known key member)) rfl _
      have restricting : (Predicate.conj (keys.map fun key =>
          .condition ⟨t.name, key, .eq, .value (valueAt row key)⟩)).isTrivial = false := by
        obtain ⟨key, others, rfl⟩ := List.exists_cons_of_ne_nil keyed
        rw [Predicate.conj_conditions fun key => ⟨t.name, key, .eq, .value (valueAt row key)⟩]
        split <;> rfl
      have own : Assignment.ofKeys t (unkeyed keys row).entries =
          .ok (as.map (Assignment.map (valueAt row))) :=
        ofKeys_setEntries (same ▸ assigned)
      have some : (unkeyed keys row).isEmpty = false := by
        have names : (setEntries keys row).map (·.1) =
            row.keys.filter fun key => !keys.contains key := by
          rw [setEntries, NameMap.keys, List.filter_map]
          rfl
        rw [NameMap.isEmpty, unkeyed, List.isEmpty_eq_false_iff]
        intro (none : setEntries keys row = [])
        rw [none, same] at names
        exact filled names.symm
      rw [Update.compile_eq_map found some own, Table.requiredPredicate_of_compile compiled,
        restricting]
      rfl

/-! ## What the statements have in common -/

theorem normal_condition (b : BulkUpdate) (row : RowValues) {accepted : Condition → Prop}
    (each : ∀ key ∈ b.keys, accepted ⟨b.table, key, .eq, .value (valueAt row key)⟩) :
    Predicate.Normal accepted (b.condition row) :=
  Predicate.normal_conj (List.forall_mem_map.mpr fun key member =>
    .solid (.condition (each key member)))

theorem depth_condition {b : BulkUpdate} (keyed : b.keys ≠ []) (row : RowValues) :
    (b.condition row).depth = b.keys.length + 2 := by
  apply Predicate.depth_conj_conditions keyed
  intro key _
  unfold Condition.depth
  cases valueAt row key <;> rfl

/-- The update mentions key columns only. -/
theorem mentions_rowUpdate (b : BulkUpdate) (row : RowValues) :
    ∀ m ∈ (b.rowUpdate row).mentions, m.field ∈ b.keys := by
  have grounded : Predicate.Normal (Condition.Grounded fun _ field => field ∈ b.keys)
      (b.condition row) :=
    b.normal_condition row fun key member => ⟨member, nofun⟩
  exact Mention.known_of_placed grounded.mentionsOnly

/-- Names that hold a NUL are the same if one that holds none is put before each of them. -/
theorem find?_prefixed {table : String} {broken : String → Bool} (whole : broken table = false)
    (names : List String) :
    (names.flatMap fun name => [table, name]).find? broken = names.find? broken := by
  induction names with
  | nil => rfl
  | cons name rest ih =>
      rw [List.flatMap_cons, List.find?_append, ih, List.find?_cons_of_neg (by simp [whole])]
      cases found : broken name <;> simp [found]

theorem names_fragments (b : BulkUpdate) : b.fragments.flatMap Fragment.names =
    b.table :: ((b.assignments.flatMap fun a => a.fragments.flatMap Fragment.names) ++ b.keys) := by
  simp [fragments, Fragment.names, Fragment.names_separated, List.flatMap_map]

/-- The first broken name is the same in the statement of a bulk update and in that of the update
of a row: the table stands first in both. -/
theorem broken?_rowUpdate {b : BulkUpdate} (keyed : b.keys ≠ []) (row : RowValues) :
    Fragment.broken? (b.rowUpdate row).fragments = Fragment.broken? b.fragments := by
  have other : (b.rowUpdate row).fragments.flatMap Fragment.names =
      b.table :: ((b.assignments.flatMap fun a => a.fragments.flatMap Fragment.names) ++
        b.keys.flatMap fun key => [b.table, key]) := by
    have condition : (b.condition row).fragments.flatMap Fragment.names =
        b.keys.flatMap fun key => [b.table, key] :=
      Predicate.names_conj_conditions keyed
    simp [Update.fragments, Update.headFragments, rowUpdate, Fragment.names,
      Fragment.names_separated, List.flatMap_map, Assignment.names_map, condition]
  unfold Fragment.broken?
  rw [names_fragments, other, List.find?_cons, List.find?_cons]
  cases whole : Sql.hasNul b.table with
  | true => rfl
  | false => simp only [List.find?_append, find?_prefixed whole]

/-- Where the statement of a bulk update breaks off, so does that of the update of a row, and with
the same piece. -/
theorem requireWhole_rowUpdate (accepted : compile s name rows keys chunkSize = .ok (some b))
    (listed : row ∈ rows) (unreserved : orKey ∉ keys) :
    (Sql.requireWhole (b.rowUpdate row).statement.sql).mapError Fault.bare =
      (Sql.requireWhole b.sql).mapError Fault.bare := by
  obtain ⟨_, _, keyed, _⟩ := compile_eq_ok_iff.mp accepted
  have same : b.keys = keys := keys_eq_of_compile accepted
  obtain ⟨_, _, whole⟩ := orderly_of_compile accepted
  obtain ⟨_, _, alone⟩ :=
    Update.orderly_of_compile (compile_rowUpdate accepted listed unreserved)
  have own := Sql.requireWhole_render whole
  have other := Sql.requireWhole_render alone
  rw [broken?_rowUpdate (same ▸ keyed)] at other
  exact other.trans own.symm

end BulkUpdate

end TableAccess
