import TableAccess.Predicate.Written
import TableAccess.Proofs.Predicate.Placeholders
import TableAccess.Proofs.Sql.Parallel

/-!
# Parallel predicates

Two predicates are parallel if they differ only in the values that they compare with, and where
null would change the question both values are null or neither is. Folding and writing keep
predicates parallel.
-/

namespace TableAccess

open Sql (Fragment)

variable {related : Value → Value → Prop}

inductive Condition.Parallel (related : Value → Value → Prop) : Condition → Condition → Prop where
  | value {table field : String} {op : Operator} {v w : Value} (values : related v w)
      (nullity : op = .eq ∨ op = .not → (v = .null ↔ w = .null)) :
      Parallel related ⟨table, field, op, .value v⟩ ⟨table, field, op, .value w⟩
  | list {table field : String} {op : Operator} {vs ws : List Value}
      (values : List.Forall₂ related vs ws) :
      Parallel related ⟨table, field, op, .list vs⟩ ⟨table, field, op, .list ws⟩

/-- A comparison with a value is put as it is, unless it asks whether a column is null. -/
theorem Condition.test_value {table field : String} {op : Operator} {v : Value}
    (plain : ¬ (v = .null ∧ (op = .eq ∨ op = .not))) :
    test ⟨table, field, op, .value v⟩ = .value op v := by
  unfold test
  cases v with
  | null =>
      cases op with
      | eq => exact absurd ⟨rfl, .inl rfl⟩ plain
      | not => exact absurd ⟨rfl, .inr rfl⟩ plain
      | _ => rfl
  | _ => rfl

theorem Condition.Parallel.fragments {c d : Condition} (parallel : c.Parallel related d) :
    Sql.Parallel related c.fragments d.fragments := by
  cases parallel with
  | @list table field op vs ws values =>
      have slots := Sql.Parallel.slots ", " values
      exact .cons (.column table field) (.cons (.verbatim _)
        (slots.append (.cons (.verbatim ")") .nil)))
  | @value table field op v w values nullity =>
      by_cases nulled : v = .null ∧ (op = .eq ∨ op = .not)
      · obtain ⟨rfl, asks⟩ := nulled
        obtain rfl := (nullity asks).mp rfl
        rcases asks with rfl | rfl
        · exact .cons (.column table field) (.cons (.verbatim " IS NULL") .nil)
        · exact .cons (.column table field) (.cons (.verbatim " IS NOT NULL") .nil)
      · have plain : ¬ (w = .null ∧ (op = .eq ∨ op = .not)) := fun found =>
          nulled ⟨(nullity found.2).mpr found.1, found.2⟩
        unfold Condition.fragments
        rw [test_value nulled, test_value plain]
        exact .cons (.column table field) (.cons (.verbatim _) (.cons (.slot values) .nil))

namespace Predicate

/-- Predicates that differ in the values of their conditions only. -/
inductive Parallel (related : Value → Value → Prop) : Predicate → Predicate → Prop where
  | unrestricted : Parallel related unrestricted unrestricted
  | const (outcome : Bool) : Parallel related (const outcome) (const outcome)
  | condition {c d : Condition} (parallel : c.Parallel related d) :
      Parallel related (condition c) (condition d)
  | all {parts others : List Predicate} (each : List.Forall₂ (Parallel related) parts others) :
      Parallel related (all parts) (all others)
  | any {parts others : List Predicate} (each : List.Forall₂ (Parallel related) parts others) :
      Parallel related (any parts) (any others)

namespace Parallel

variable {p q : Predicate} {parts others : List Predicate}

theorem isUnrestricted_eq (parallel : Parallel related p q) :
    p.isUnrestricted = q.isUnrestricted := by
  cases parallel <;> rfl

theorem isConst_eq (parallel : Parallel related p q) (outcome : Bool) :
    p.isConst outcome = q.isConst outcome := by
  cases parallel <;> rfl

theorem isTrivial_eq (parallel : Parallel related p q) : p.isTrivial = q.isTrivial := by
  rw [isTrivial, isTrivial, parallel.isUnrestricted_eq, parallel.isConst_eq]

/-- What all parallel predicates agree about is found among both or neither of two lists. -/
theorem any_eq {found : Predicate → Bool} (each : List.Forall₂ (Parallel related) parts others)
    (same : ∀ p q, Parallel related p q → found p = found q) :
    parts.any found = others.any found := by
  induction each with
  | nil => rfl
  | cons head _ ih => rw [List.any_cons, List.any_cons, same _ _ head, ih]

theorem filter {kept : Predicate → Bool} (each : List.Forall₂ (Parallel related) parts others)
    (same : ∀ p q, Parallel related p q → kept p = kept q) :
    List.Forall₂ (Parallel related) (parts.filter kept) (others.filter kept) := by
  induction each with
  | nil => exact .nil
  | @cons p q rest later head _ ih =>
      have here := same p q head
      cases keeps : kept p with
      | true =>
          rw [List.filter_cons_of_pos keeps, List.filter_cons_of_pos (here ▸ keeps)]
          exact .cons head ih
      | false =>
          have dropped : kept q = false := here ▸ keeps
          rw [List.filter_cons_of_neg (by simp [keeps]),
            List.filter_cons_of_neg (by simp [dropped])]
          exact ih

/-- Folding a conjunction keeps predicates parallel. -/
theorem conj (each : List.Forall₂ (Parallel related) parts others) :
    Parallel related (conj parts) (conj others) := by
  have restricting : List.Forall₂ (Parallel related)
      (parts.filter fun part => !part.isTrivial) (others.filter fun part => !part.isTrivial) :=
    filter each fun p q parallel => by rw [parallel.isTrivial_eq]
  unfold Predicate.conj
  rw [any_eq each fun p q parallel => parallel.isConst_eq false,
    any_eq each fun p q parallel => parallel.isConst_eq true]
  split
  · exact .const false
  · generalize (parts.filter fun part => !part.isTrivial) = first at restricting
    generalize (others.filter fun part => !part.isTrivial) = second at restricting
    cases restricting with
    | nil =>
        dsimp only
        split
        · exact .const true
        · exact .unrestricted
    | cons head tail =>
        cases tail with
        | nil => exact head
        | cons next later => exact .all (.cons head (.cons next later))

/-- Folding a disjunction keeps predicates parallel. -/
theorem disj (each : List.Forall₂ (Parallel related) parts others) :
    Parallel related (disj parts) (disj others) := by
  have possible : List.Forall₂ (Parallel related)
      (parts.filter fun part => !part.isConst false)
      (others.filter fun part => !part.isConst false) :=
    filter each fun p q parallel => by rw [parallel.isConst_eq false]
  have empty : parts.isEmpty = others.isEmpty := by
    cases each <;> rfl
  unfold Predicate.disj
  rw [empty, any_eq each fun p q parallel => parallel.isTrivial_eq]
  split
  · exact .unrestricted
  · split
    · exact .const true
    · generalize (parts.filter fun part => !part.isConst false) = first at possible
      generalize (others.filter fun part => !part.isConst false) = second at possible
      cases possible with
      | nil => exact .const false
      | cons head tail =>
          cases tail with
          | nil => exact head
          | cons next later => exact .any (.cons head (.cons next later))

/-- A group of parallel parts is written in parallel. -/
theorem fragments_group (separator : String)
    (each : List.Forall₂ (Sql.Parallel related) (parts.map Predicate.fragments)
      (others.map Predicate.fragments)) :
    Sql.Parallel related
      (.verbatim "(" :: (Fragment.separated separator (partFragments parts) ++ [.verbatim ")"]))
      (.verbatim "(" :: (Fragment.separated separator (partFragments others)
        ++ [.verbatim ")"])) := by
  rw [partFragments_eq_map, partFragments_eq_map]
  have inner := Sql.Parallel.separated separator each
  exact .cons (.verbatim "(") (inner.append (.cons (.verbatim ")") .nil))

/-- Parallel predicates are written in parallel. -/
theorem fragments (parallel : Parallel related p q) :
    Sql.Parallel related p.fragments q.fragments := by
  have inner {parts others : List Predicate}
      (each : List.Forall₂ (Parallel related) parts others)
      (ih : ∀ part ∈ parts, ∀ other, Parallel related part other →
        Sql.Parallel related part.fragments other.fragments) :
      List.Forall₂ (Sql.Parallel related) (parts.map Predicate.fragments)
        (others.map Predicate.fragments) := by
    induction each with
    | nil => exact .nil
    | cons head _ later =>
        obtain ⟨here, rest⟩ := List.forall_mem_cons.mp ih
        exact .cons (here _ head) (later rest)
  -- the relation is nested in lists, so the induction is on the first predicate
  induction p using nested_induction generalizing q with
  | unrestricted =>
      cases parallel
      exact .cons (.verbatim _) .nil
  | const outcome =>
      cases parallel
      exact .cons (.verbatim _) .nil
  | condition c =>
      cases parallel with
      | condition parallel => exact parallel.fragments
  | all parts ih =>
      cases parallel with
      | all each => exact fragments_group " AND " (inner each fun part found _ => ih part found)
  | any parts ih =>
      cases parallel with
      | any each => exact fragments_group " OR " (inner each fun part found _ => ih part found)

end Parallel

end Predicate

end TableAccess
