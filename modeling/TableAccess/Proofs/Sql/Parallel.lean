import Mathlib.Data.List.Forall2
import TableAccess.Proofs.Sql.Filling
import TableAccess.Sql.Statement

/-!
# Parallel statements

Two lists of fragments are parallel if they differ only in what their slots carry. Their texts
are the same, and what they bind is related position by position.
-/

namespace TableAccess.Sql

variable {α β : Type} {related : α → β → Prop}

/-- Two fragments that differ at most in what a slot carries. -/
inductive Fragment.Parallel (related : α → β → Prop) : Fragment α → Fragment β → Prop where
  | verbatim (s : String) : Parallel related (verbatim s) (verbatim s)
  | name (s : String) : Parallel related (name s) (name s)
  | column (table field : String) : Parallel related (column table field) (column table field)
  | slot {a : α} {b : β} (values : related a b) : Parallel related (slot a) (slot b)

theorem Fragment.Parallel.text_eq {a : Fragment α} {b : Fragment β}
    (parallel : Fragment.Parallel related a b) : a.text = b.text := by
  cases parallel with
  | verbatim s => rfl
  | name s => rfl
  | column table field => rfl
  | slot values => rfl

/-- Lists of fragments that differ at most in what their slots carry. -/
abbrev Parallel (related : α → β → Prop) : List (Fragment α) → List (Fragment β) → Prop :=
  List.Forall₂ (Fragment.Parallel related)

namespace Parallel

variable {first : List (Fragment α)} {second : List (Fragment β)}

theorem text_eq (parallel : Parallel related first second) :
    first.flatMap Fragment.text = second.flatMap Fragment.text := by
  induction parallel with
  | nil => rfl
  | cons head _ ih =>
      rw [List.flatMap_cons, List.flatMap_cons, ih, head.text_eq]

theorem render_eq (parallel : Parallel related first second) :
    Fragment.render first = Fragment.render second := by
  rw [Fragment.render, text_eq parallel, Fragment.render]

theorem bounds (parallel : Parallel related first second) :
    List.Forall₂ related (Fragment.bounds first) (Fragment.bounds second) := by
  unfold Fragment.bounds
  induction parallel with
  | nil => exact .nil
  | cons head _ ih =>
      cases head with
      | verbatim s => exact ih
      | name s => exact ih
      | column table field => exact ih
      | slot values => exact .cons values ih

theorem append {rest : List (Fragment α)} {others : List (Fragment β)}
    (one : Parallel related first second) (two : Parallel related rest others) :
    Parallel related (first ++ rest) (second ++ others) :=
  List.rel_append one two

theorem separated (separator : String) {parts : List (List (Fragment α))}
    {others : List (List (Fragment β))} (each : List.Forall₂ (Parallel related) parts others) :
    Parallel related (Fragment.separated separator parts)
      (Fragment.separated separator others) := by
  induction each with
  | nil => exact .nil
  | cons head tail ih =>
      cases tail with
      | nil => exact head
      | cons next later => exact head.append (.cons (.verbatim separator) ih)

theorem slots (separator : String) {values : List α} {others : List β}
    (each : List.Forall₂ related values others) :
    Parallel related (Fragment.separated separator (values.map fun value => [.slot value]))
      (Fragment.separated separator (others.map fun value => [.slot value])) := by
  exact separated separator (List.rel_map (fun _ _ values => .cons (.slot values) .nil) each)

/-- A clause without slots is parallel to itself. -/
theorem quiet {related : α → α → Prop} {clause : List (Fragment α)}
    (silent : ∀ fragment ∈ clause, fragment.Quiet) : Parallel related clause clause := by
  refine List.forall₂_same.mpr fun fragment found => ?_
  have here := silent fragment found
  cases fragment with
  | verbatim s => exact .verbatim s
  | name s => exact .name s
  | column table field => exact .column table field
  | slot content => exact here.elim

end Parallel

end TableAccess.Sql

namespace TableAccess

open Sql (Fragment)

variable {related : Value → Value → Prop}

/-- Statements with the same text and related values. -/
structure Statement.Parallel (related : Value → Value → Prop) (st other : Statement) : Prop where
  table : st.table = other.table
  sql : st.sql = other.sql
  params : List.Forall₂ related st.params other.params

theorem Statement.parallel_ofFragments (table : String) {first second : List (Fragment Value)}
    (parallel : Sql.Parallel related first second) :
    (ofFragments table first).Parallel related (ofFragments table second) :=
  ⟨rfl, parallel.render_eq, parallel.bounds⟩

/-- Batches with the same text and related value sets. -/
structure Batch.Parallel (related : Value → Value → Prop) (batch other : Batch) : Prop where
  table : batch.table = other.table
  sql : batch.sql = other.sql
  paramSets : List.Forall₂ (List.Forall₂ related) batch.paramSets other.paramSets

end TableAccess
