import TableAccess.Proofs.Mutation.Compilation
import TableAccess.Proofs.Predicate.Names

/-!
# Names in changes

Every name in the statement of an accepted change is that of the changed table or of one of its
columns.
-/

namespace TableAccess

open Sql (Clause Fragment Orderly Worded)

variable {α : Type} {names : String → Prop} {s : Snapshot} {name : String} {t : Table}

/-! ## Assignments -/

namespace Assignment

theorem names_of_ofKeys {list : List (String × α)} {as : List (Assignment α)}
    (read : ofKeys t list = .ok as) : ∀ a ∈ as, t.Names a.column := by
  intro a listed
  obtain ⟨_, _, _, split, _⟩ := of_ofKeys read a listed
  exact Table.names_of_hasColumn (Table.hasColumn_of_splitKey split)

theorem orderly {a : Assignment α} (known : names a.column) : Orderly names a.fragments := by
  have equals : Worded " = " := .of_known [" ", "=", " "]
  have plus : Worded " + " := .of_known [" ", "+", " "]
  have slot : Orderly names [.slot a.operand] := .slot _ .nil
  unfold fragments
  cases a.increment with
  | true => exact .nameThen known equals (.nameThen known plus slot)
  | false => exact .nameThen known equals slot

end Assignment

/-- An update with known names is orderly up to its condition. -/
theorem orderly_update {table : String} {as : List (Assignment α)} {clause : List (Fragment α)}
    (known : names table) (columns : ∀ a ∈ as, names a.column) (orderly : Orderly names clause) :
    Orderly names ([.verbatim "UPDATE ", .name table, .verbatim " SET "]
      ++ Fragment.separated ", " (as.map Assignment.fragments)
      ++ .verbatim " WHERE " :: clause) := by
  have update : Worded "UPDATE " := .of_known ["UPDATE", " "]
  have set : Worded " SET " := .of_known [" ", "SET", " "]
  have comma : Worded ", " := .of_known [",", " "]
  have introduction : Worded " WHERE " := .of_known [" ", "WHERE", " "]
  have assigned := Orderly.separated comma
    (List.forall_mem_map.mpr fun a found => Assignment.orderly (columns a found))
  have whole := Orderly.verbatim update
    (.nameThen known set (assigned.followed introduction orderly))
  simpa using whole

/-! ## Updates and deletions -/

theorem Update.orderly_of_compile {set : RowValues} {f : Filter} {u : Update}
    (accepted : compile s name set f = .ok u) :
    ∃ t, s.resolve name = .ok t ∧ Orderly t.Names u.fragments := by
  obtain ⟨t, found, compiled, assigned, named⟩ := of_compile accepted
  have condition := Predicate.orderly_of_compile (fun _ known => known) compiled
  have whole := orderly_update (.inl named) (Assignment.names_of_ofKeys assigned) condition
  refine ⟨t, found, ?_⟩
  unfold fragments headFragments
  simpa using whole

theorem Update.confined_of_compile {set : RowValues} {f : Filter} {u : Update}
    (accepted : compile s name set f = .ok u) :
    ∃ t, s.resolve name = .ok t ∧ Sql.Confined t.Names u.statement.sql.toList := by
  obtain ⟨t, found, orderly⟩ := orderly_of_compile accepted
  exact ⟨t, found, orderly.confined_render⟩

theorem Delete.confined_of_compile {f : Filter} {d : Delete}
    (accepted : compile s name f = .ok d) :
    ∃ t, s.resolve name = .ok t ∧ Sql.Confined t.Names d.statement.sql.toList := by
  obtain ⟨t, found, compiled, named⟩ := of_compile accepted
  have deletion : Worded "DELETE FROM " := .of_known ["DELETE", " ", "FROM", " "]
  have introduction : Worded " WHERE " := .of_known [" ", "WHERE", " "]
  have condition := Predicate.orderly_of_compile (fun _ known => known) compiled
  have orderly : Orderly t.Names d.fragments :=
    .verbatim deletion (.nameThen (.inl named) introduction condition)
  exact ⟨t, found, orderly.confined_render⟩

/-! ## Inserts -/

namespace Insert

theorem names_of_compile {rows : NewRows} {i : Insert} (accepted : compile s name rows = .ok i) :
    ∃ t, s.resolve name = .ok t ∧ t.Names i.table ∧ ∀ column ∈ i.columns, t.Names column := by
  obtain ⟨t, first, _, found, _, known, _, rfl⟩ := compile_eq_ok_iff.mp accepted
  exact ⟨t, found, .inl rfl, fun column listed => Table.names_of_hasColumn (known column listed)⟩

theorem orderly {i : Insert} (known : names i.table)
    (columns : ∀ column ∈ i.columns, names column) :
    Orderly names i.fragments := by
  have insertion : Worded "INSERT INTO " := .of_known ["INSERT", " ", "INTO", " "]
  have comma : Worded ", " := .of_known [",", " "]
  unfold fragments
  split
  · have defaults : Worded " DEFAULT VALUES" := .of_known [" ", "DEFAULT", " ", "VALUES"]
    exact .verbatim insertion (.nameThen known defaults .nil)
  · have opening : Worded " (" := .of_known [" ", "("]
    have between : Worded ") VALUES (" := .of_known [")", " ", "VALUES", " ", "("]
    have closing : Worded ")" := .of_known [")"]
    have listed : Orderly (α := String) names
        (Fragment.separated ", " (i.columns.map fun column => [.name column])) :=
      .separated comma (List.forall_mem_map.mpr fun column found =>
        .name (columns column found) Sql.apart_nil .nil)
    have slots : Orderly names
        (Fragment.separated ", " (i.columns.map fun column => [.slot column])) :=
      .separated comma (List.forall_mem_map.mpr fun column _ => .slot column .nil)
    have whole := Orderly.verbatim insertion (.nameThen known opening
      (listed.followed between (slots.followed closing .nil)))
    simpa using whole

theorem confined_of_compile {rows : NewRows} {i : Insert}
    (accepted : compile s name rows = .ok i) :
    ∃ t, s.resolve name = .ok t ∧ Sql.Confined t.Names i.batch.sql.toList := by
  obtain ⟨t, found, known, columns⟩ := names_of_compile accepted
  exact ⟨t, found, (orderly known columns).confined_render⟩

end Insert

/-! ## Bulk updates -/

namespace BulkUpdate

theorem names_of_compile {rows : List RowValues} {keys : List String} {chunkSize : Nat}
    {b : BulkUpdate} (accepted : compile s name rows keys chunkSize = .ok (some b)) :
    ∃ t, s.resolve name = .ok t ∧ t.Names b.table ∧ (∀ a ∈ b.assignments, t.Names a.column) ∧
      ∀ key ∈ b.keys, t.Names key := by
  obtain ⟨t, columns, found, named, same, _, _, _, assigned⟩ := of_compile accepted
  rw [same]
  exact ⟨t, found, .inl named, Assignment.names_of_ofKeys assigned, fun key listed =>
    Table.names_of_hasColumn (keys_of_compile accepted found key listed)⟩

theorem orderly {b : BulkUpdate} (known : names b.table)
    (columns : ∀ a ∈ b.assignments, names a.column) (keys : ∀ key ∈ b.keys, names key) :
    Orderly names b.fragments := by
  have equals : Worded " = " := .of_known [" ", "=", " "]
  have conjunction : Worded " AND " := .of_known [" ", "AND", " "]
  have condition : Orderly names (Fragment.separated " AND "
      (b.keys.map fun key => [.name key, .verbatim " = ", .slot key])) :=
    .separated conjunction (List.forall_mem_map.mpr fun key found =>
      .nameThen (keys key found) equals (.slot key .nil))
  exact orderly_update known columns condition

theorem orderly_of_compile {rows : List RowValues} {keys : List String} {chunkSize : Nat}
    {b : BulkUpdate} (accepted : compile s name rows keys chunkSize = .ok (some b)) :
    ∃ t, s.resolve name = .ok t ∧ Orderly t.Names b.fragments := by
  obtain ⟨t, found, known, columns, keyed⟩ := names_of_compile accepted
  exact ⟨t, found, orderly known columns keyed⟩

theorem confined_of_compile {rows : List RowValues} {keys : List String} {chunkSize : Nat}
    {b : BulkUpdate} (accepted : compile s name rows keys chunkSize = .ok (some b)) :
    ∃ t, s.resolve name = .ok t ∧
      ∀ batch ∈ b.batches chunkSize, Sql.Confined t.Names batch.sql.toList := by
  obtain ⟨t, found, orderly⟩ := orderly_of_compile accepted
  refine ⟨t, found, fun batch cut => ?_⟩
  obtain ⟨chunk, _, rfl⟩ := List.mem_map.mp cut
  exact orderly.confined_render

end BulkUpdate

end TableAccess
