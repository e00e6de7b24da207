import TableAccess.Predicate.Written
import TableAccess.Proofs.Filter.Key
import TableAccess.Proofs.Predicate.NormalForm
import TableAccess.Proofs.Predicate.Placeholders
import TableAccess.Proofs.Sql.Scanning

/-!
# Names in predicates

A predicate that a filter compiles to mentions only its table and the columns of that table, and
is written in an orderly way: between two names there is always fixed text.
-/

namespace TableAccess

open Sql (Apart Fragment Orderly Worded apart_cons)

/-- The names that belong to a table: its own and those of its columns. -/
def Table.Names (t : Table) (name : String) : Prop :=
  name = t.name ∨ ∃ c ∈ t.columns, c.name = name

theorem Table.names_of_hasColumn {t : Table} {name : String} (known : t.hasColumn name = true) :
    t.Names name :=
  .inr (hasColumn_iff.mp known)

variable {names : String → Prop}

namespace Condition

structure Within (names : String → Prop) (c : Condition) : Prop where
  table : names c.table
  field : names c.field

theorem within_of_compileEntry {t : Table} {key : String} {given : FilterValue} {c : Condition}
    (compiled : t.compileEntry key given = .ok (.condition c)) : c.Within t.Names := by
  obtain ⟨field, op, parsed, forms⟩ := Table.compileEntry_eq_ok compiled
  have known := Table.names_of_hasColumn (Table.hasColumn_of_parseKey parsed)
  rcases forms with ⟨_, _, same⟩ | ⟨v, vs, _, _, same⟩ | ⟨v, _, _, same⟩
  · cases same
  · cases same
    exact ⟨.inl rfl, known⟩
  · cases same
    exact ⟨.inl rfl, known⟩

theorem worded_symbol (op : Operator) : Worded op.symbol := by
  cases op with
  | notIn => exact .of_known ["NOT", " ", "IN"]
  | eq => exact .of_known ["="]
  | not => exact .of_known ["!="]
  | gt => exact .of_known [">"]
  | gte => exact .of_known [">="]
  | lt => exact .of_known ["<"]
  | lte => exact .of_known ["<="]
  | isIn => exact .of_known ["IN"]
  | like => exact .of_known ["LIKE"]

theorem Within.mono {c : Condition} {others : String → Prop} (within : c.Within names)
    (wider : ∀ name, names name → others name) : c.Within others :=
  ⟨wider _ within.table, wider _ within.field⟩

/-- The text of a condition on known names is orderly. -/
theorem Within.orderly {c : Condition} (within : c.Within names) : Orderly names c.fragments := by
  obtain ⟨table, field⟩ := within
  have blank : Worded " " := .of_known [" "]
  have opening : Worded " (" := .of_known [" ", "("]
  have closing : Worded ")" := .of_known [")"]
  have comma : Worded ", " := .of_known [",", " "]
  unfold fragments
  cases c.test with
  | isNull =>
      have text : Worded " IS NULL" := .of_known [" ", "IS", " ", "NULL"]
      exact .columnThen table field text .nil
  | isNotNull =>
      have text : Worded " IS NOT NULL" := .of_known [" ", "IS", " ", "NOT", " ", "NULL"]
      exact .columnThen table field text .nil
  | value op v =>
      have text := (blank.append (worded_symbol op)).append blank
      exact .columnThen table field text (.slot v .nil) (by simp)
  | list op vs =>
      have text := (blank.append (worded_symbol op)).append opening
      have slots : ∀ part ∈ vs.map fun v => [Fragment.slot v], Orderly names part := by
        intro part found
        obtain ⟨v, _, rfl⟩ := List.mem_map.mp found
        exact .slot v .nil
      exact .columnThen table field text ((Orderly.separated comma slots).followed closing .nil)
        (by simp)

end Condition

namespace Predicate

/-- A group of orderly parts is orderly. -/
theorem orderly_group {separator : String} {parts : List Predicate} (worded : Worded separator)
    (filled : separator ≠ "") (each : ∀ part ∈ parts, Orderly names part.fragments) :
    Orderly names (.verbatim "(" :: (Fragment.separated separator (partFragments parts)
      ++ [.verbatim ")"])) := by
  have opening : Worded "(" := .of_known ["("]
  have closing : Worded ")" := .of_known [")"]
  have inner : ∀ part ∈ partFragments parts, Orderly names part := by
    rw [partFragments_eq_map]
    exact List.forall_mem_map.mpr each
  exact .verbatim opening ((Orderly.separated worded inner filled).followed closing .nil)

theorem Solid.orderly {p : Predicate} (solid : Solid (Condition.Within names) p) :
    Orderly names p.fragments := by
  induction solid with
  | condition within => exact within.orderly
  | all _ _ ih =>
      have separator : Worded " AND " := .of_known [" ", "AND", " "]
      exact orderly_group separator (by decide) ih
  | any _ _ ih =>
      have separator : Worded " OR " := .of_known [" ", "OR", " "]
      exact orderly_group separator (by decide) ih

/-- The text of a predicate in normal form is orderly if its conditions have known names. -/
theorem Normal.orderly {p : Predicate} (normal : Normal (Condition.Within names) p) :
    Orderly names p.fragments := by
  have always : Worded "1 = 1" := .of_known ["1 = 1"]
  have never : Worded "1 = 0" := .of_known ["1 = 0"]
  cases normal with
  | unrestricted => exact .verbatim always .nil
  | const outcome =>
      cases outcome with
      | true => exact .verbatim always .nil
      | false => exact .verbatim never .nil
  | solid solid => exact solid.orderly

/-- A compiled filter mentions its table and the columns of that table only. -/
theorem orderly_of_compile {t : Table} {f : Filter} {p : Predicate}
    (wider : ∀ name, t.Names name → names name) (compiled : t.compile f = .ok p) :
    Orderly names p.fragments := by
  refine Normal.orderly (normal_of_compile (fun key given c accepted => ?_) compiled)
  exact (Condition.within_of_compileEntry accepted).mono wider

end Predicate

end TableAccess
