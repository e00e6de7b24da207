import TableAccess.Proofs.Filter.Meaning
import TableAccess.Proofs.Predicate.Names
import TableAccess.Proofs.Sql.Parentheses

/-!
# Groups in compiled predicates

What a filter compiles to is in normal form, and its conditions belong to the table. So each group
has something in its parentheses, each list too, and a constant is written only where it is the
whole predicate.
-/

namespace TableAccess

open Sql (Fragment Packed Tidy)

theorem Operator.takesList_iff {op : Operator} :
    op.takesList = true ↔ op = .isIn ∨ op = .notIn := by
  cases op <;> decide

namespace Condition

variable {t : Table} {c : Condition}

/-- A condition on a column of a table. It has a list, which is not empty, exactly for the two
operators of membership, and a single value for the others. -/
structure Fits (t : Table) (c : Condition) : Prop where
  table : c.table = t.name
  field : ∃ column ∈ t.columns, column.name = c.field
  list : (∃ vs, vs ≠ [] ∧ c.operand = .list vs) ↔ c.operator = .isIn ∨ c.operator = .notIn
  value : (∃ v, c.operand = .value v) ↔ ¬ (c.operator = .isIn ∨ c.operator = .notIn)

theorem fits_of_compileEntry {key : String} {given : FilterValue}
    (compiled : t.compileEntry key given = .ok (.condition c)) : c.Fits t := by
  obtain ⟨field, op, parsed, forms⟩ := Table.compileEntry_eq_ok compiled
  have known := Table.hasColumn_iff.mp (Table.hasColumn_of_parseKey parsed)
  rcases forms with ⟨_, _, same⟩ | ⟨v, vs, takes, _, same⟩ | ⟨v, takes, _, same⟩
  · cases same
  · cases same
    have membership := Operator.takesList_iff.mp takes
    exact ⟨rfl, known, iff_of_true ⟨_, List.cons_ne_nil v vs, rfl⟩ membership,
      iff_of_false nofun (not_not_intro membership)⟩
  · cases same
    have comparison := mt Operator.takesList_iff.mpr (Bool.eq_false_iff.mp takes)
    exact ⟨rfl, known, iff_of_false nofun comparison, iff_of_true ⟨v, rfl⟩ comparison⟩

/-- The list of a condition of a table has a value. -/
theorem Fits.filled (fits : c.Fits t) {vs : List Value} (given : c.operand = .list vs) :
    vs ≠ [] := by
  have membership : c.operator = .isIn ∨ c.operator = .notIn := by
    by_contra comparison
    obtain ⟨v, single⟩ := fits.value.mpr comparison
    cases given.symm.trans single
  obtain ⟨others, some, same⟩ := fits.list.mpr membership
  cases given.symm.trans same
  exact some

theorem operand_of_test {op : Operator} {vs : List Value} (asks : c.test = .list op vs) :
    c.operand = .list vs := by
  unfold test at asks
  split at asks <;> cases asks
  assumption

theorem packed_symbol (op : Operator) :
    Packed ((" " ++ op.symbol ++ " ").toList.map .char) := by
  cases op <;> exact .plain _ (by decide) (by decide)

/-- A condition of a table is written with something between its parentheses. -/
theorem Fits.packed (fits : c.Fits t) : Packed (c.fragments.flatMap Fragment.tokens) := by
  have column : Packed (Fragment.tokens (.column c.table c.field : Fragment Value)) :=
    .column c.table c.field
  unfold fragments
  rw [List.flatMap_cons]
  cases asks : c.test with
  | isNull => exact column.append (.plain " IS NULL".toList (by decide) (by decide))
  | isNotNull => exact column.append (.plain " IS NOT NULL".toList (by decide) (by decide))
  | value op v => exact column.append ((packed_symbol op).append (.slot v))
  | list op vs =>
      have comma : Packed (", ".toList.map .char) := .plain _ (by decide) (by decide)
      have slots : Packed ((Fragment.separated ", " (vs.map fun v => [.slot v])).flatMap
          Fragment.tokens) := by
        refine .separated (mt List.map_eq_nil_iff.mp (fits.filled (operand_of_test asks))) comma ?_
        intro part found
        obtain ⟨v, _, rfl⟩ := List.mem_map.mp found
        exact .slot v
      have written : (Fragment.verbatim (" " ++ op.symbol ++ " (") : Fragment Value).tokens =
          (" " ++ op.symbol ++ " ").toList.map .char ++ [.char '('] := by
        simp [Fragment.tokens]
      simp only [List.flatMap_cons, List.flatMap_append, written, List.append_assoc]
      exact column.append ((packed_symbol op).append slots.enclosed)

end Condition

namespace Predicate

variable {t : Table} {p : Predicate}

theorem packed_group {separator : String} {parts : List Predicate} (enough : 2 ≤ parts.length)
    (between : Packed (separator.toList.map .char))
    (each : ∀ part ∈ parts, Packed (part.fragments.flatMap Fragment.tokens)) :
    Packed ((.verbatim "(" :: (Fragment.separated separator (partFragments parts)
      ++ [.verbatim ")"])).flatMap Fragment.tokens) := by
  have inner : Packed ((Fragment.separated separator (partFragments parts)).flatMap
      Fragment.tokens) := by
    rw [partFragments_eq_map]
    refine .separated (mt List.map_eq_nil_iff.mp ?_) between (List.forall_mem_map.mpr each)
    rintro rfl
    cases enough
  rw [List.flatMap_cons, List.flatMap_append]
  exact inner.enclosed

theorem Solid.packed (solid : Solid (Condition.Fits t) p) :
    Packed (p.fragments.flatMap Fragment.tokens) := by
  induction solid with
  | condition fits => exact fits.packed
  | all enough _ ih => exact packed_group enough (.plain _ (by decide) (by decide)) ih
  | any enough _ ih => exact packed_group enough (.plain _ (by decide) (by decide)) ih

/-- Whatever a filter compiles to is in normal form, with conditions of the table, and its text is
tidy: constants stand alone, and parentheses are never empty. -/
theorem normal_and_tidy_of_compile {f : Filter} (compiled : t.compile f = .ok p) :
    p.Normal (Condition.Fits t) ∧ Tidy p.sql := by
  have normal : p.Normal (Condition.Fits t) :=
    normal_of_compile (fun _ _ _ accepted => Condition.fits_of_compileEntry accepted) compiled
  refine ⟨normal, ?_⟩
  have scanned := (orderly_of_compile (fun _ known => known) compiled).scan?_render
  cases normal with
  | unrestricted => exact Sql.tidy_of_mem_constants (by decide)
  | const outcome => exact Sql.tidy_of_mem_constants (by cases outcome <;> decide)
  | solid solid => exact solid.packed.tidy scanned

theorem normal_and_tidy_of_compile_nestedFilter :
    items.compile nestedFilter = .ok nestedPredicate ∧
      nestedPredicate.Normal (Condition.Fits items) ∧ Tidy nestedPredicate.sql := by
  have compiled : items.compile nestedFilter = .ok nestedPredicate := rfl
  exact ⟨compiled, normal_and_tidy_of_compile compiled⟩

/-- Empty parentheses may still be a name. -/
theorem column_named_parentheses :
    (Table.mk "t" [{ name := "()", declared := "INTEGER" }] false).compile
        (.entries [("()", .scalar (.int 1))]) =
          .ok (.condition ⟨"t", "()", .eq, .value (.int 1)⟩) ∧
      "()".toList <:+: (condition ⟨"t", "()", .eq, .value (.int 1)⟩).sql.toList := by
  refine ⟨rfl, ?_⟩
  rw [sql, Fragment.render, String.toList_ofList]
  exact ⟨"\"t\".\"".toList, "\" = ?".toList, rfl⟩

end Predicate

end TableAccess
