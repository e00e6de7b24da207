import TableAccess.Proofs.Filter.Key
import TableAccess.Proofs.Filter.Meaning
import TableAccess.Store.Change

/-!
# Lists and their expansions

Membership in a list stands for a group of equalities, and its opposite for a conjunction of
inequalities. As long as the list holds no null, the list and its expansion are equally true of
every row. A null in the list is compared with, which is true of nothing, whereas an entry of its
own asks whether the column is null: so membership misses the rows whose column is null, and with a
null in the list nothing lies outside of it.
-/

namespace TableAccess

/-! ## Lists and expansions -/

/-- The key of a group ends in the delimiter, which the key of an operator never does. -/
theorem Operator.key_ne_orKey {op : Operator} {suffix : String} (chosen : op.suffix? = some suffix)
    (field : String) : op.key field ≠ orKey := by
  obtain ⟨plain, nonempty⟩ := underscore_notMem_suffix chosen
  intro same
  have ends := congrArg (fun key => key.toList.getLast?) ((key_eq chosen field).symm.trans same)
  have group : orKey.toList.getLast? = some '_' := by decide
  rw [String.toList_append, List.getLast?_append_of_ne_nil _ nonempty, group] at ends
  exact plain (List.mem_of_getLast? ends)

namespace Filter

def listing (op : Operator) (field : String) (vs : List Value) : Filter :=
  .entries [(op.key field, .list vs)]

def anyEqual (field : String) (vs : List Value) : Filter :=
  .entries [(orKey, .group (vs.map fun v => .entries [(field, .scalar v)]))]

def noneEqual (field : String) (vs : List Value) : Filter :=
  .entries (vs.map fun v => (Operator.not.key field, .scalar v))

end Filter

namespace Table

variable {t : Table} {field key : String} {op : Operator}

theorem compileEntry_listing (parsed : t.parseKey key = .ok (field, op))
    (takesList : op.takesList = true) {vs : List Value} (nonempty : vs ≠ []) :
    t.compileEntry key (.list vs) = .ok (.condition ⟨t.name, field, op, .list vs⟩) := by
  obtain ⟨v, rest, rfl⟩ := List.exists_cons_of_ne_nil nonempty
  refine bind_eq_ok_iff.mpr ⟨(field, op), parsed, ?_⟩
  dsimp only
  rw [takesList]
  rfl

theorem compileEntry_scalar (parsed : t.parseKey key = .ok (field, op))
    (takesValue : op.takesList = false) (v : Value) :
    t.compileEntry key (.scalar v) = .ok (.condition ⟨t.name, field, op, .value v⟩) := by
  refine bind_eq_ok_iff.mpr ⟨(field, op), parsed, ?_⟩
  dsimp only
  rw [takesValue]
  rfl

/-- Entries that each ask one question compile to the conjunction of the questions. -/
theorem compile_conditions {α : Type} {named : α → String} {entry : α → FilterValue}
    {question : α → Condition} {list : List α} (plain : ∀ a ∈ list, named a ≠ orKey)
    (each : ∀ a ∈ list, t.compileEntry (named a) (entry a) = .ok (.condition (question a))) :
    t.compile (.entries (list.map fun a => (named a, entry a))) =
      .ok (.conj (list.map fun a => .condition (question a))) := by
  refine compile_eq_ok_iff.mpr ⟨_, ?_, rfl⟩
  induction list with
  | nil => rfl
  | cons a rest ih =>
      obtain ⟨unreserved, others⟩ := List.forall_mem_cons.mp plain
      obtain ⟨here, later⟩ := List.forall_mem_cons.mp each
      refine compileEntries_cons_eq_ok_iff.mpr ⟨_, ?_, _, ih others later, rfl⟩
      exact (compileValue_of_ne unreserved _).trans here

/-- Entries of one key that each ask one question compile to the conjunction of the questions. -/
theorem compile_entries_map {α : Type} {entry : α → FilterValue} {question : α → Condition}
    (plain : key ≠ orKey)
    (each : ∀ a, t.compileEntry key (entry a) = .ok (.condition (question a))) (list : List α) :
    t.compile (.entries (list.map fun a => (key, entry a))) =
      .ok (.conj (list.map fun a => .condition (question a))) :=
  compile_conditions (fun _ _ => plain) fun a _ => each a

theorem compile_anyEqual (known : t.hasColumn field = true) (unreserved : field ≠ orKey)
    (vs : List Value) : t.compile (.anyEqual field vs) =
      .ok (.conj [.disj (vs.map fun v => .condition ⟨t.name, field, .eq, .value v⟩)]) := by
  have members : t.compileMembers (vs.map fun v => .entries [(field, .scalar v)]) =
      .ok (vs.map fun v => .condition ⟨t.name, field, .eq, .value v⟩) := by
    induction vs with
    | nil => rfl
    | cons v rest ih =>
        refine compileMembers_cons_eq_ok_iff.mpr ⟨_, ?_, rfl, _, ih, rfl⟩
        exact compile_entries_map unreserved
          (compileEntry_scalar (parseKey_column known) rfl) [v]
  refine compile_eq_ok_iff.mpr ⟨_, compileEntries_cons_eq_ok_iff.mpr ?_, rfl⟩
  exact ⟨_, compileValue_group_eq_ok_iff.mpr ⟨_, members, rfl⟩, _, rfl, rfl⟩

end Table

/-! ## Answers -/

namespace Condition

variable {table field : String} {v : Value}

theorem test_equality (given : v ≠ .null) :
    (Condition.test ⟨table, field, .eq, .value v⟩) = .value .eq v := by
  cases v with
  | null => exact absurd rfl given
  | _ => rfl

theorem test_inequality (given : v ≠ .null) :
    (Condition.test ⟨table, field, .not, .value v⟩) = .value .not v := by
  cases v with
  | null => exact absurd rfl given
  | _ => rfl

end Condition

/-- Unequal is the opposite of equal, and unknown where equality is. -/
theorem Operator.truth_not (type : ColumnType) (cell operand : Cell) :
    Operator.not.truth type cell operand = (Operator.eq.truth type cell operand).not := by
  unfold Operator.truth
  split
  · rfl
  · dsimp only
    cases (type.comparable cell operand).1.order (type.comparable cell operand).2 <;> rfl

/-- Nothing is equal to null, and null is equal to nothing. -/
theorem Operator.truth_eq_yes {type : ColumnType} {cell operand : Cell}
    (holds : Operator.eq.truth type cell operand = .yes) :
    cell.isNull = false ∧ operand.isNull = false := by
  unfold Operator.truth at holds
  split at holds
  · cases holds
  · rename_i known
    simpa using known

namespace StoredTable

variable (stored : StoredTable) (row : StoredRow) (table field : String) (vs : List Value)

def equality (v : Value) : Truth :=
  Operator.eq.truth (stored.definition.typeOf field) (stored.cellAt row field) (.ofValue v)

theorem conditionTruth_isIn : stored.conditionTruth row ⟨table, field, .isIn, .list vs⟩ =
    .any (vs.map (stored.equality row field)) := rfl

theorem conditionTruth_notIn : stored.conditionTruth row ⟨table, field, .notIn, .list vs⟩ =
    (Truth.any (vs.map (stored.equality row field))).not := rfl

variable {v : Value}

theorem conditionTruth_equality (given : v ≠ .null) :
    stored.conditionTruth row ⟨table, field, .eq, .value v⟩ = stored.equality row field v := by
  unfold conditionTruth
  rw [Condition.test_equality given]
  rfl

theorem conditionTruth_inequality (given : v ≠ .null) :
    stored.conditionTruth row ⟨table, field, .not, .value v⟩ =
      (stored.equality row field v).not := by
  unfold conditionTruth
  rw [Condition.test_inequality given]
  exact Operator.truth_not _ _ _

/-- A column equals a value exactly if the entry for it says so and the column is not null. -/
theorem equality_eq_yes_iff : stored.equality row field v = .yes ↔
    (stored.cellAt row field).isNull = false ∧
      stored.conditionTruth row ⟨table, field, .eq, .value v⟩ = .yes := by
  by_cases null : v = .null
  · subst null
    have never : stored.equality row field .null ≠ .yes :=
      fun holds => nomatch (Operator.truth_eq_yes holds).2
    refine iff_of_false never fun ⟨present, holds⟩ => ?_
    have asked : stored.conditionTruth row ⟨table, field, .eq, .value .null⟩ =
        .ofBool (stored.cellAt row field).isNull := rfl
    rw [asked, present] at holds
    cases holds
  · rw [stored.conditionTruth_equality row table field null]
    exact ⟨fun holds => ⟨(Operator.truth_eq_yes holds).1, holds⟩, fun both => both.2⟩

end StoredTable

/-! ## Agreement -/

/-- A list and its expansion compile. If the list holds no null they are equally true of every row,
so that they select the same ones. In any case membership selects the rows that the group selects
and whose column is not null; and with a null in the list, nothing is selected as outside of it. -/
theorem lists_agree_with_expansions (t : Table) (field : String) (vs : List Value)
    (known : t.hasColumn field = true) (unreserved : field ≠ orKey)
    (unnamed : ∀ op ∈ [Operator.isIn, .notIn, .not], t.hasColumn (op.key field) = false)
    (nonempty : vs ≠ []) :
    ∃ inside group outside conjunction,
      t.compile (.listing .isIn field vs) = .ok inside ∧
      t.compile (.anyEqual field vs) = .ok group ∧
      t.compile (.listing .notIn field vs) = .ok outside ∧
      t.compile (.noneEqual field vs) = .ok conjunction ∧
      ∀ (stored : StoredTable) (row : StoredRow),
        (.null ∉ vs →
          inside.truth (stored.conditionTruth row) = group.truth (stored.conditionTruth row) ∧
          outside.truth (stored.conditionTruth row) =
            conjunction.truth (stored.conditionTruth row)) ∧
        (stored.satisfies inside row = true ↔
          (stored.cellAt row field).isNull = false ∧ stored.satisfies group row = true) ∧
        (.null ∈ vs → stored.satisfies outside row = false) := by
  have listed {op : Operator} {suffix : String} (chosen : op.suffix? = some suffix)
      (takesList : op.takesList = true) (free : t.hasColumn (op.key field) = false) :
      t.compile (.listing op field vs) =
        .ok (.conj [.condition ⟨t.name, field, op, .list vs⟩]) :=
    Table.compile_entries_map (Operator.key_ne_orKey chosen field) (fun _ : Unit =>
      Table.compileEntry_listing (Table.parseKey_key known chosen free) takesList nonempty) [()]
  have isIn : Operator.isIn.suffix? = some "in" := rfl
  have notIn : Operator.notIn.suffix? = some "notin" := rfl
  have not : Operator.not.suffix? = some "not" := rfl
  have unequal := Table.parseKey_key known not (unnamed .not (by simp))
  refine ⟨_, _, _, _, listed isIn rfl (unnamed .isIn (by simp)),
    Table.compile_anyEqual known unreserved vs, listed notIn rfl (unnamed .notIn (by simp)),
    Table.compile_entries_map (Operator.key_ne_orKey not field)
      (Table.compileEntry_scalar unequal rfl) vs, fun stored row => ?_⟩
  simp only [StoredTable.satisfies, Predicate.truth_conj, Predicate.truth_disj _
    (mt List.map_eq_nil_iff.mp nonempty), List.map_cons, List.map_nil, List.map_map, Truth.all_cons,
    Truth.all_nil, Truth.and_yes, Function.comp_def, Predicate.truth,
    StoredTable.conditionTruth_isIn, StoredTable.conditionTruth_notIn]
  refine ⟨fun absent => ?_, ?_, fun present => ?_⟩
  · have given {v : Value} (member : v ∈ vs) : v ≠ .null := fun same => absent (same ▸ member)
    constructor
    · congr 1
      refine List.map_congr_left fun v member => ?_
      exact (stored.conditionTruth_equality row t.name field (given member)).symm
    · rw [Truth.not_any, List.map_map]
      congr 1
      refine List.map_congr_left fun v member => ?_
      exact (stored.conditionTruth_inequality row t.name field (given member)).symm
  · simp only [Truth.holds_iff, Truth.any_eq_yes_iff, List.mem_map,
      stored.equality_eq_yes_iff row t.name field]
    constructor
    · rintro ⟨v, member, known, equal⟩
      exact ⟨known, v, member, equal⟩
    · rintro ⟨known, v, member, equal⟩
      exact ⟨v, member, known, equal⟩
  · -- comparing with null is unknown, so the disjunction is not false
    have unknown : stored.equality row field .null = .unknown := by
      unfold StoredTable.equality Operator.truth
      rw [if_pos]
      exact Bool.or_eq_true_iff.mpr (.inr rfl)
    have possible : Truth.any (vs.map (stored.equality row field)) ≠ .no :=
      Truth.any_ne_no_of_mem (List.mem_map.mpr ⟨.null, present, unknown⟩) (by decide)
    cases found : Truth.any (vs.map (stored.equality row field)) with
    | no => exact absurd found possible
    | unknown => rfl
    | yes => rfl

/-! ## Items with and without a status -/

/-- An item without a status and one with the second of two. -/
def stock : StoredTable where
  definition :=
    { name := "items"
      columns :=
        [{ name := "id", declared := "INTEGER", primaryKey := true },
          { name := "status", declared := "TEXT" }, { name := "price", declared := "REAL" }] }
  rows := [⟨1, [.integer 1, .null, .null]⟩, ⟨2, [.integer 2, .text "b", .null]⟩]

def inStock (f : Filter) : Except Error (List StoredRow) :=
  (items.compile f).map fun p => stock.rows.filter (stock.satisfies p)

theorem lists_agree_with_expansions_items :
    items.hasColumn "status" = true ∧ "status" ≠ orKey ∧
    (∀ op ∈ [Operator.isIn, .notIn, .not], items.hasColumn (op.key "status") = false) ∧
    ∃ inside group, items.compile (.listing .isIn "status" [.text "a", .text "b"]) = .ok inside ∧
      items.compile (.anyEqual "status" [.text "a", .text "b"]) = .ok group ∧
      ∀ row, inside.truth (stock.conditionTruth row) = group.truth (stock.conditionTruth row) := by
  have unreserved : "status" ≠ orKey := by decide
  have unnamed : ∀ op ∈ [Operator.isIn, .notIn, .not], items.hasColumn (op.key "status") = false :=
    by decide
  obtain ⟨inside, group, _, _, membership, alternative, _, _, agree⟩ :=
    lists_agree_with_expansions items "status" [.text "a", .text "b"] rfl unreserved unnamed
      (by decide)
  refine ⟨rfl, unreserved, unnamed, inside, group, membership, alternative, fun row => ?_⟩
  exact ((agree stock row).1 (by decide)).1

/-- With a null in the list, membership misses the item without a status, which the group selects,
and nothing lies outside of the list, although the other item is unequal to all of its values. -/
theorem null_in_list_differs :
    inStock (.listing .isIn "status" [.text "a", .null]) = .ok [] ∧
    inStock (.anyEqual "status" [.text "a", .null]) =
      .ok [⟨1, [.integer 1, .null, .null]⟩] ∧
    inStock (.listing .notIn "status" [.text "a", .null]) = .ok [] ∧
    inStock (.noneEqual "status" [.text "a", .null]) =
      .ok [⟨2, [.integer 2, .text "b", .null]⟩] := by
  decide +kernel

end TableAccess
