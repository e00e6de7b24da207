import TableAccess.Mutation.BulkUpdate
import TableAccess.Proofs.Filter.Key
import TableAccess.Proofs.NameMap
import TableAccess.Proofs.Outcome

/-!
# What an accepted change consists of

Each compiler of a change is a chain of checks. Here is told, for every one of them, what is
known of its parts once the chain has succeeded.
-/

namespace TableAccess

variable {s : Snapshot} {name : String} {t : Table}

/-! ## Assignments -/

namespace Assignment

variable {α β : Type}

/-- Which columns are assigned does not depend on what is assigned to them. -/
theorem columns_map (f : α → β) (as : List (Assignment α)) :
    (as.map (map f)).map (·.column) = as.map (·.column) := by
  rw [List.map_map]
  rfl

/-- A key that is read as an assignment is a column, or one with the suffix of an increment. -/
theorem of_ofKey {key : String} {operand : α} {a : Assignment α}
    (read : ofKey t key operand = .ok a) : ∃ suffix, t.splitKey key = .ok (a.column, suffix) ∧
      a.increment = suffix.isSome ∧ a.operand = operand := by
  obtain ⟨⟨field, suffix⟩, split, rest⟩ := bind_eq_ok_iff.mp read
  refine ⟨suffix, ?_⟩
  cases suffix with
  | none =>
      cases rest
      exact ⟨split, rfl, rfl⟩
  | some suffix =>
      dsimp only at rest
      split at rest
      · obtain ⟨c, _, rest⟩ := bind_eq_ok_iff.mp rest
        split at rest
        · cases rest
          exact ⟨split, rfl, rfl⟩
        · cases rest
      · cases rest

/-- A key that is a column and nothing more is an assignment that replaces it. -/
theorem ofKey_column {column : String} (known : t.hasColumn column = true) (operand : α) :
    ofKey t column operand = .ok ⟨column, false, operand⟩ := by
  unfold ofKey Table.splitKey
  rw [if_pos known]
  rfl

/-- Reading keys does not look at the operands. -/
theorem ofKey_map (t : Table) (key : String) (operand : α) (f : α → β) :
    ofKey t key (f operand) = (ofKey t key operand).map (map f) := by
  unfold ofKey
  cases t.splitKey key with
  | error e => rfl
  | ok split =>
      obtain ⟨field, suffix⟩ := split
      cases suffix with
      | none => rfl
      | some suffix =>
          simp only [bind, Except.bind]
          split
          · cases t.requireColumn field with
            | error e => rfl
            | ok c => dsimp only; split <;> rfl
          · rfl

theorem ofKeys_map (t : Table) (list : List (String × α)) (f : α → β) :
    ofKeys t (list.map fun entry => (entry.1, f entry.2)) =
      (ofKeys t list).map (List.map (map f)) := by
  induction list with
  | nil => rfl
  | cons head rest ih =>
      rw [List.map_cons, ofKeys, ofKeys, ofKey_map, ih]
      cases ofKey t head.1 head.2 with
      | error e => rfl
      | ok a => cases ofKeys t rest <;> rfl

theorem ofKeys_map_of_eq_ok {list : List (String × α)} {as : List (Assignment α)} (f : α → β)
    (read : ofKeys t list = .ok as) :
    ofKeys t (list.map fun entry => (entry.1, f entry.2)) = .ok (as.map (map f)) := by
  rw [ofKeys_map, read]
  rfl

theorem ofKeys_columns {names : List String} (columns : ∀ name ∈ names, t.hasColumn name = true) :
    ofKeys t (names.map fun name => (name, name)) =
      .ok (names.map fun name => ⟨name, false, name⟩) := by
  induction names with
  | nil => rfl
  | cons name rest ih =>
      obtain ⟨known, later⟩ := List.forall_mem_cons.mp columns
      exact bind_eq_ok_iff.mpr ⟨_, ofKey_column known name, bind_eq_ok_iff.mpr ⟨_, ih later, rfl⟩⟩

/-- Every assignment is what one of the keys is read as. -/
theorem exists_of_ofKeys {list : List (String × α)} {as : List (Assignment α)}
    (read : ofKeys t list = .ok as) : ∀ a ∈ as, ∃ entry ∈ list, ofKey t entry.1 entry.2 = .ok a := by
  induction list generalizing as with
  | nil =>
      cases read
      exact fun _ found => nomatch found
  | cons head rest ih =>
      obtain ⟨a, first, others⟩ := bind_eq_ok_iff.mp read
      obtain ⟨later, next, whole⟩ := bind_eq_ok_iff.mp others
      cases whole
      refine List.forall_mem_cons.mpr ⟨⟨head, List.mem_cons_self, first⟩, ?_⟩
      intro other listed
      obtain ⟨entry, member, given⟩ := ih next other listed
      exact ⟨entry, List.mem_cons_of_mem _ member, given⟩

theorem of_ofKeys {list : List (String × α)} {as : List (Assignment α)}
    (read : ofKeys t list = .ok as) : ∀ a ∈ as, ∃ entry ∈ list, ∃ suffix,
      t.splitKey entry.1 = .ok (a.column, suffix) ∧ a.increment = suffix.isSome ∧
        a.operand = entry.2 := by
  intro a listed
  obtain ⟨entry, member, given⟩ := exists_of_ofKeys read a listed
  exact ⟨entry, member, of_ofKey given⟩

/-- A key of an update names a column: it is the column, or, unless it is a column itself, the
column with the suffix of an increment. -/
def Names (t : Table) (key column : String) : Prop :=
  key = column ∨ t.hasColumn key = false ∧ key = column ++ "__" ++ incrementSuffix

instance (t : Table) (key column : String) : Decidable (Names t key column) :=
  inferInstanceAs (Decidable (_ ∨ _))

theorem names_of_ofKey {key : String} {operand : α} {a : Assignment α}
    (read : ofKey t key operand = .ok a) : Names t key a.column := by
  obtain ⟨⟨field, suffix⟩, split, rest⟩ := bind_eq_ok_iff.mp read
  cases suffix with
  | none =>
      cases rest
      exact .inl (Table.eq_of_splitKey split).symm
  | some suffix =>
      dsimp only at rest
      split at rest
      · rename_i increment
        obtain ⟨c, _, rest⟩ := bind_eq_ok_iff.mp rest
        split at rest
        · cases rest
          exact .inr ⟨Table.hasColumn_eq_false_of_splitKey split,
            increment ▸ Table.eq_append_of_splitKey split⟩
        · cases rest
      · cases rest

end Assignment

/-! ## Updates and deletions -/

/-- The guard passes on what the filter compiles to. -/
theorem Table.requiredPredicate_eq_ok {f : Filter} {operation : Operation} {p : Predicate}
    (passed : t.requiredPredicate f operation = .ok p) : t.compile f = .ok p := by
  unfold requiredPredicate at passed
  obtain ⟨_, rest⟩ := refuse_eq_ok_iff.mp passed
  obtain ⟨condition, compiled, rest⟩ := bind_eq_ok_iff.mp rest
  obtain ⟨_, rest⟩ := refuse_eq_ok_iff.mp rest
  cases rest
  exact compiled

/-- An accepted update has the assignments of its entries in their order and the predicate of
its filter. -/
theorem Update.of_compile {set : RowValues} {f : Filter} {u : Update}
    (accepted : compile s name set f = .ok u) :
    ∃ t, s.resolve name = .ok t ∧ t.compile f = .ok u.condition ∧
      Assignment.ofKeys t set.entries = .ok u.assignments ∧ u.table = t.name := by
  obtain ⟨t, found, rest⟩ := bind_eq_ok_iff.mp accepted
  obtain ⟨_, rest⟩ := refuse_eq_ok_iff.mp rest
  obtain ⟨condition, passed, rest⟩ := bind_eq_ok_iff.mp rest
  obtain ⟨assignments, assigned, rest⟩ := bind_eq_ok_iff.mp rest
  cases rest
  exact ⟨t, found, Table.requiredPredicate_eq_ok passed, assigned, rfl⟩

/-- An accepted deletion has the predicate of its filter. -/
theorem Delete.of_compile {f : Filter} {d : Delete} (accepted : compile s name f = .ok d) :
    ∃ t, s.resolve name = .ok t ∧ t.compile f = .ok d.condition ∧ d.table = t.name := by
  obtain ⟨t, found, rest⟩ := bind_eq_ok_iff.mp accepted
  obtain ⟨condition, passed, rest⟩ := bind_eq_ok_iff.mp rest
  cases rest
  exact ⟨t, found, Table.requiredPredicate_eq_ok passed, rfl⟩

/-! ## Inserts -/

/-- Only a key that is a column and nothing more is read as a column, namely that one. -/
theorem Table.plainColumn_eq_ok_iff {key field : String} :
    t.plainColumn key = .ok field ↔ field = key ∧ t.hasColumn key = true := by
  constructor
  · intro read
    obtain ⟨⟨column, suffix⟩, split, rest⟩ := bind_eq_ok_iff.mp read
    cases suffix with
    | some suffix => cases rest
    | none =>
        cases rest
        obtain rfl := eq_of_splitKey split
        exact ⟨rfl, hasColumn_of_splitKey split⟩
  · rintro ⟨rfl, known⟩
    rw [plainColumn, splitKey, if_pos known]
    rfl

theorem plainColumns_eq_ok_iff {keys columns : List String} :
    plainColumns t keys = .ok columns ↔ columns = keys ∧ ∀ key ∈ keys, t.hasColumn key = true := by
  induction keys generalizing columns with
  | nil =>
      rw [plainColumns, pure_eq_ok_iff]
      constructor
      · rintro rfl
        exact ⟨rfl, List.forall_mem_nil _⟩
      · rintro ⟨rfl, _⟩
        rfl
  | cons key rest ih =>
      rw [plainColumns, bind_eq_ok_iff, List.forall_mem_cons]
      constructor
      · rintro ⟨field, first, others⟩
        obtain ⟨fields, later, whole⟩ := bind_eq_ok_iff.mp others
        obtain ⟨rfl, known⟩ := Table.plainColumn_eq_ok_iff.mp first
        obtain ⟨rfl, all⟩ := ih.mp later
        cases whole
        exact ⟨rfl, known, all⟩
      · rintro ⟨rfl, known, all⟩
        refine ⟨key, Table.plainColumn_eq_ok_iff.mpr ⟨rfl, known⟩, ?_⟩
        exact bind_eq_ok_iff.mpr ⟨rest, ih.mpr ⟨rfl, all⟩, rfl⟩

theorem checkColumns_eq_ok_iff {columns : List String} {index : Nat} {rows : List RowValues} :
    checkColumns name columns index rows = .ok () ↔ ∀ row ∈ rows, row.keys = columns := by
  induction rows generalizing index with
  | nil => exact iff_of_true rfl (List.forall_mem_nil _)
  | cons head rest ih =>
      rw [checkColumns, List.forall_mem_cons]
      split
      · rename_i same
        rw [ih]
        exact (and_iff_right same).symm
      · rename_i differs
        exact iff_of_false nofun fun both => differs both.1

/-- An insert is accepted if there is a row, the columns of the first row are columns of the table
and nothing more, and the other rows have the same columns. -/
theorem Insert.compile_eq_ok_iff {rows : NewRows} {i : Insert} :
    compile s name rows = .ok i ↔ ∃ t first rest, s.resolve name = .ok t ∧
      rows.toList = first :: rest ∧ (∀ key ∈ first.keys, t.hasColumn key = true) ∧
      (∀ row ∈ rest, row.keys = first.keys) ∧
      i = ⟨t.name, first.keys, rows.toList.map NameMap.values,
        rows.isSingle && t.rowidAlias?.isSome⟩ := by
  rw [compile, bind_eq_ok_iff]
  constructor
  · rintro ⟨t, found, rest⟩
    cases listed : rows.toList with
    | nil =>
        rw [listed] at rest
        cases rest
    | cons first later =>
        rw [listed] at rest
        obtain ⟨columns, read, rest⟩ := bind_eq_ok_iff.mp rest
        obtain ⟨_, even, rest⟩ := bind_eq_ok_iff.mp rest
        obtain ⟨rfl, known⟩ := plainColumns_eq_ok_iff.mp read
        cases rest
        exact ⟨t, first, later, found, rfl, known, checkColumns_eq_ok_iff.mp even, rfl⟩
  · rintro ⟨t, first, later, found, listed, known, even, rfl⟩
    refine ⟨t, found, ?_⟩
    rw [listed]
    refine bind_eq_ok_iff.mpr ⟨first.keys, plainColumns_eq_ok_iff.mpr ⟨rfl, known⟩, ?_⟩
    exact bind_eq_ok_iff.mpr ⟨(), checkColumns_eq_ok_iff.mpr even, rfl⟩

/-- The rows of an accepted insert all have the columns of the insert, in their order. -/
theorem Insert.of_compile {rows : NewRows} {i : Insert} (accepted : compile s name rows = .ok i) :
    i.rows = rows.toList.map NameMap.values ∧ ∀ row ∈ rows.toList, row.keys = i.columns := by
  obtain ⟨t, first, rest, _, listed, _, even, rfl⟩ := compile_eq_ok_iff.mp accepted
  refine ⟨rfl, ?_⟩
  rw [listed]
  exact List.forall_mem_cons.mpr ⟨rfl, even⟩

/-- The table of a compiled change is the one that its name stands for. -/
theorem Insert.resolve_of_compile {rows : NewRows} {i : Insert}
    (accepted : compile s name rows = .ok i) : ∃ t, s.resolve name = .ok t ∧ t.name = i.table := by
  obtain ⟨t, _, _, found, _, _, _, rfl⟩ := compile_eq_ok_iff.mp accepted
  exact ⟨t, found, rfl⟩

/-! ## Bulk updates -/

namespace BulkUpdate

theorem requireKeys_eq_ok_iff {keys : List String} :
    requireKeys t keys = .ok () ↔ ∀ key ∈ keys, t.hasColumn key = true := by
  induction keys with
  | nil => exact iff_of_true rfl (List.forall_mem_nil _)
  | cons key rest ih =>
      rw [requireKeys, bind_eq_ok_iff, List.forall_mem_cons, ← ih]
      constructor
      · rintro ⟨c, found, later⟩
        exact ⟨Table.hasColumn_of_requireColumn found, later⟩
      · rintro ⟨known, later⟩
        obtain ⟨c, found⟩ := Option.isSome_iff_exists.mp known
        exact ⟨c, Table.requireColumn_eq_ok_iff.mpr found, later⟩

theorem containsKeys_eq_ok_iff {row : RowValues} {keys : List String} :
    containsKeys name row keys = .ok () ↔ ∀ key ∈ keys, key ∈ row.keys := by
  induction keys with
  | nil => exact iff_of_true rfl (List.forall_mem_nil _)
  | cons key rest ih =>
      rw [containsKeys, List.forall_mem_cons, ← NameMap.contains_iff_mem_keys]
      split
      · rename_i here
        rw [ih]
        exact (and_iff_right here).symm
      · rename_i missing
        exact iff_of_false nofun fun both => missing both.1

theorem keysNotNull_eq_ok_iff {index : Nat} {row : RowValues} {keys : List String} :
    keysNotNull index row keys = .ok () ↔ ∀ key ∈ keys, valueAt row key ≠ .null := by
  induction keys with
  | nil => exact iff_of_true rfl (List.forall_mem_nil _)
  | cons key rest ih =>
      rw [keysNotNull, List.forall_mem_cons]
      split
      · rename_i null
        exact iff_of_false nofun fun both => both.1 null
      · rename_i given
        rw [ih]
        exact (and_iff_right given).symm

theorem allKeysNotNull_eq_ok_iff {keys : List String} {index : Nat} {rows : List RowValues} :
    allKeysNotNull keys index rows = .ok () ↔
      ∀ row ∈ rows, ∀ key ∈ keys, valueAt row key ≠ .null := by
  induction rows generalizing index with
  | nil => exact iff_of_true rfl (List.forall_mem_nil _)
  | cons row rest ih =>
      rw [allKeysNotNull, bind_eq_ok_iff, List.forall_mem_cons]
      constructor
      · rintro ⟨_, first, later⟩
        exact ⟨keysNotNull_eq_ok_iff.mp first, ih.mp later⟩
      · rintro ⟨first, later⟩
        exact ⟨(), keysNotNull_eq_ok_iff.mpr first, ih.mpr later⟩

/-- What rows come to if they are accepted: there are none, or they have the columns of the first
one, among them the keys, which are not null, and something to set. -/
inductive Compiles (t : Table) (keys : List String) : List RowValues → Option BulkUpdate → Prop where
  | nothing : Compiles t keys [] none
  | rows {first : RowValues} {rest : List RowValues} {as : List (Assignment String)}
      (held : ∀ key ∈ keys, key ∈ first.keys) (even : ∀ row ∈ rest, row.keys = first.keys)
      (filled : (first.keys.filter fun key => !keys.contains key) ≠ [])
      (assigned : Assignment.ofKeys t
        ((first.keys.filter fun key => !keys.contains key).map fun key => (key, key)) = .ok as)
      (addressed : ∀ row ∈ first :: rest, ∀ key ∈ keys, valueAt row key ≠ .null) :
      Compiles t keys (first :: rest) (some ⟨t.name, as, keys, first :: rest⟩)

variable {rows : List RowValues} {keys : List String} {chunkSize : Nat}

/-- A bulk update is accepted exactly if it has keys, all of them columns, chunks that are not
empty, and rows that are accepted. -/
theorem compile_eq_ok_iff {b : Option BulkUpdate} :
    compile s name rows keys chunkSize = .ok b ↔ ∃ t, s.resolve name = .ok t ∧ keys ≠ [] ∧
      0 < chunkSize ∧ (∀ key ∈ keys, t.hasColumn key = true) ∧ Compiles t keys rows b := by
  rw [compile, bind_eq_ok_iff]
  apply exists_congr
  intro t
  apply and_congr_right
  intro found
  rw [refuse_eq_ok_iff, List.isEmpty_iff]
  apply and_congr_right
  intro keyed
  rw [refuse_eq_ok_iff, Nat.pos_iff_ne_zero]
  apply and_congr_right
  intro positive
  rw [bind_eq_ok_iff, ← requireKeys_eq_ok_iff]
  constructor
  · rintro ⟨_, known, rest⟩
    refine ⟨known, ?_⟩
    cases rows with
    | nil =>
        cases rest
        exact .nothing
    | cons first later =>
        obtain ⟨_, held, rest⟩ := bind_eq_ok_iff.mp rest
        obtain ⟨_, even, rest⟩ := bind_eq_ok_iff.mp rest
        obtain ⟨filled, rest⟩ := refuse_eq_ok_iff.mp rest
        obtain ⟨assignments, assigned, rest⟩ := bind_eq_ok_iff.mp rest
        obtain ⟨_, addressed, rest⟩ := bind_eq_ok_iff.mp rest
        cases rest
        exact .rows (containsKeys_eq_ok_iff.mp held) (checkColumns_eq_ok_iff.mp even)
          (mt List.isEmpty_iff.mpr filled) assigned (allKeysNotNull_eq_ok_iff.mp addressed)
  · rintro ⟨known, compiles⟩
    refine ⟨(), known, ?_⟩
    cases compiles with
    | nothing => rfl
    | rows held even filled assigned addressed =>
        refine bind_eq_ok_iff.mpr ⟨(), containsKeys_eq_ok_iff.mpr held, ?_⟩
        refine bind_eq_ok_iff.mpr ⟨(), checkColumns_eq_ok_iff.mpr even, ?_⟩
        refine refuse_eq_ok_iff.mpr ⟨mt List.isEmpty_iff.mp filled, ?_⟩
        refine bind_eq_ok_iff.mpr ⟨_, assigned, ?_⟩
        exact bind_eq_ok_iff.mpr ⟨(), allKeysNotNull_eq_ok_iff.mpr addressed, rfl⟩

/-- The rows of an accepted bulk update share their columns, the keys among them. What is
assigned are the columns that are not keys, in their order. -/
theorem of_compile {b : BulkUpdate} (accepted : compile s name rows keys chunkSize = .ok (some b)) :
    ∃ t columns, s.resolve name = .ok t ∧ b.table = t.name ∧ b.keys = keys ∧ b.rows = rows ∧
      (∀ row ∈ rows, row.keys = columns) ∧ (∀ key ∈ keys, key ∈ columns) ∧
      Assignment.ofKeys t ((columns.filter fun key => !keys.contains key).map fun key => (key, key))
        = .ok b.assignments := by
  obtain ⟨t, found, _, _, _, compiles⟩ := compile_eq_ok_iff.mp accepted
  cases compiles with
  | @rows first rest as held even filled assigned addressed =>
      exact ⟨t, first.keys, found, rfl, rfl, rfl, List.forall_mem_cons.mpr ⟨rfl, even⟩, held,
        assigned⟩

theorem keys_eq_of_compile {b : BulkUpdate}
    (accepted : compile s name rows keys chunkSize = .ok (some b)) : b.keys = keys := by
  obtain ⟨_, _, _, _, own, _⟩ := of_compile accepted
  exact own

theorem rows_eq_of_compile {b : BulkUpdate}
    (accepted : compile s name rows keys chunkSize = .ok (some b)) : b.rows = rows := by
  obtain ⟨_, _, _, _, _, given, _⟩ := of_compile accepted
  exact given

/-- The keys of an accepted bulk update are columns of its table. -/
theorem keys_of_compile {b : Option BulkUpdate}
    (accepted : compile s name rows keys chunkSize = .ok b)
    (found : s.resolve name = .ok t) : ∀ key ∈ keys, t.hasColumn key = true := by
  obtain ⟨table, resolved, _, _, known, _⟩ := compile_eq_ok_iff.mp accepted
  cases found.symm.trans resolved
  exact known

/-- The rows of an accepted bulk update are null at no key. -/
theorem given_of_compile {b : BulkUpdate}
    (accepted : compile s name rows keys chunkSize = .ok (some b)) :
    ∀ row ∈ rows, ∀ key ∈ b.keys, valueAt row key ≠ .null := by
  obtain ⟨_, _, _, _, _, compiles⟩ := compile_eq_ok_iff.mp accepted
  cases compiles with
  | rows held even filled assigned addressed => exact addressed

/-- Each row of an accepted bulk update is accepted by itself, in chunks of any size. -/
theorem compile_singleton {b : BulkUpdate} {row : RowValues} {size : Nat}
    (accepted : compile s name rows keys chunkSize = .ok (some b)) (listed : row ∈ rows)
    (positive : 0 < size) :
    compile s name [row] keys size = .ok (some { b with rows := [row] }) := by
  obtain ⟨t, found, keyed, _, known, compiles⟩ := compile_eq_ok_iff.mp accepted
  refine compile_eq_ok_iff.mpr ⟨t, found, keyed, positive, known, ?_⟩
  cases compiles with
  | @rows first rest as held even filled assigned addressed =>
      have each : ∀ row ∈ first :: rest, row.keys = first.keys :=
        List.forall_mem_cons.mpr ⟨rfl, even⟩
      have same : row.keys = first.keys := each row listed
      rw [← same] at held filled assigned
      exact .rows held (List.forall_mem_nil _) filled assigned
        (List.forall_mem_singleton.mpr (addressed row listed))

theorem positive_of_compile {b : Option BulkUpdate}
    (accepted : compile s name rows keys chunkSize = .ok b) : 0 < chunkSize := by
  obtain ⟨_, _, _, positive, _⟩ := compile_eq_ok_iff.mp accepted
  exact positive

/-- A bulk update that compiles to something has rows. -/
theorem nonempty_of_compile {b : BulkUpdate}
    (accepted : compile s name rows keys chunkSize = .ok (some b)) : rows ≠ [] := by
  obtain ⟨_, _, _, _, _, compiles⟩ := compile_eq_ok_iff.mp accepted
  cases compiles with
  | rows => exact List.cons_ne_nil _ _

/-- Only a bulk update without rows comes to nothing. -/
theorem compile_eq_none (accepted : compile s name rows keys chunkSize = .ok none) : rows = [] := by
  obtain ⟨_, _, _, _, _, compiles⟩ := compile_eq_ok_iff.mp accepted
  cases compiles with
  | nothing => rfl

end BulkUpdate

end TableAccess
