import TableAccess.Proofs.Predicate.Compilation
import TableAccess.Proofs.Predicate.Folding

/-!
# The normal form of predicates

Folding leaves constants only where they are the whole predicate. Below the root stand
conditions, in groups of at least two parts. Such a predicate can always be false: it
is as soon as all of its conditions are.
-/

namespace TableAccess.Predicate

/-- A predicate made of accepted conditions, in groups of at least two parts. -/
inductive Solid (accepted : Condition → Prop) : Predicate → Prop where
  | condition {c : Condition} (fits : accepted c) : Solid accepted (condition c)
  | all {parts : List Predicate} (enough : 2 ≤ parts.length)
      (solid : ∀ part ∈ parts, Solid accepted part) : Solid accepted (all parts)
  | any {parts : List Predicate} (enough : 2 ≤ parts.length)
      (solid : ∀ part ∈ parts, Solid accepted part) : Solid accepted (any parts)

inductive Normal (accepted : Condition → Prop) : Predicate → Prop where
  | unrestricted : Normal accepted unrestricted
  | const (outcome : Bool) : Normal accepted (const outcome)
  | solid {p : Predicate} (solid : Solid accepted p) : Normal accepted p

variable {accepted : Condition → Prop}

theorem Normal.solid_of_isTrivial {p : Predicate} (normal : Normal accepted p)
    (restricting : p.isTrivial = false) (possible : p.isConst false = false) :
    Solid accepted p := by
  cases normal with
  | unrestricted => cases restricting
  | const outcome =>
      cases outcome with
      | false => cases possible
      | true => cases restricting
  | solid solid => exact solid

/-- Folding a conjunction keeps the normal form. -/
theorem normal_conj {parts : List Predicate} (normal : ∀ part ∈ parts, Normal accepted part) :
    Normal accepted (conj parts) := by
  have solid (possible : ∀ other ∈ parts, other.isConst false = false) {part : Predicate}
      (kept : part ∈ parts.filter fun part => !part.isTrivial) : Solid accepted part := by
    obtain ⟨member, restricting⟩ := List.mem_filter.mp kept
    exact (normal part member).solid_of_isTrivial (by simpa using restricting)
      (possible part member)
  refine conj_cases parts (fun _ => .const false) (fun _ => .unrestricted)
    (fun _ _ => .const true) ?_ ?_
  · intro part possible one
    exact .solid (solid possible (one ▸ List.mem_singleton_self part))
  · intro kept possible eq enough
    subst eq
    exact .solid (.all enough fun part member => solid possible member)

/-- Folding a disjunction keeps the normal form. -/
theorem normal_disj {parts : List Predicate} (normal : ∀ part ∈ parts, Normal accepted part) :
    Normal accepted (disj parts) := by
  have solid (restricting : ∀ other ∈ parts, other.isTrivial = false) {part : Predicate}
      (kept : part ∈ parts.filter fun part => !part.isConst false) : Solid accepted part := by
    obtain ⟨member, possible⟩ := List.mem_filter.mp kept
    exact (normal part member).solid_of_isTrivial (restricting part member)
      (by simpa using possible)
  refine disj_cases parts (fun _ => .unrestricted) (fun _ => .const true)
    (fun _ _ => .const false) ?_ ?_
  · intro part restricting one
    exact .solid (solid restricting (one ▸ List.mem_singleton_self part))
  · intro kept restricting eq enough
    subst eq
    exact .solid (.any enough fun part member => solid restricting member)

/-- Compilation ends in normal form. -/
theorem normal_of_compile {t : Table}
    (fits : ∀ key given c, t.compileEntry key given = .ok (condition c) → accepted c)
    {f : Filter} {p : Predicate} (compiled : t.compile f = .ok p) : Normal accepted p := by
  refine Table.compile_induction (fun _ p => Normal accepted p)
    (fun _ _ part => Normal accepted part) ?_ ?_ ?_ compiled
  · intro key given part _ compiled
    obtain ⟨field, op, _, forms⟩ := Table.compileEntry_eq_ok compiled
    rcases forms with ⟨_, _, rfl⟩ | ⟨v, vs, _, _, rfl⟩ | ⟨v, _, _, rfl⟩
    · exact .const _
    · exact .solid (.condition (fits key given _ compiled))
    · exact .solid (.condition (fits key given _ compiled))
  · intro members parts related _
    exact normal_disj (forall_of_forall₂ related fun _ _ normal => normal)
  · intro list parts related
    exact normal_conj (forall_of_forall₂ related fun _ _ normal => normal)

/-! ## Predicates that can be false -/

/-- Without constants, a predicate is false where none of its conditions holds. -/
theorem Solid.truth_eq_no {p : Predicate} (solid : Solid accepted p) :
    p.truth (fun _ => .no) = .no := by
  induction solid with
  | condition fits => rfl
  | @all parts enough solid ih =>
      obtain ⟨part, member⟩ :=
        List.exists_mem_of_length_pos (Nat.lt_of_lt_of_le Nat.two_pos enough)
      rw [truth, truths_eq_map]
      exact Truth.all_eq_no_of_mem (List.mem_map.mpr ⟨part, member, ih part member⟩)
  | @any parts enough solid ih =>
      rw [truth, truths_eq_map]
      refine Truth.any_eq_no fun value member => ?_
      obtain ⟨part, found, rfl⟩ := List.mem_map.mp member
      exact ih part found

/-- A predicate in normal form is true by its form alone, or false where none of its
conditions holds. -/
theorem Normal.truth_eq_no {p : Predicate} (normal : Normal accepted p)
    (restricting : p.isTrivial = false) : p.truth (fun _ => .no) = .no := by
  cases possible : p.isConst false with
  | true => exact truth_of_isConst _ possible
  | false => exact (normal.solid_of_isTrivial restricting possible).truth_eq_no

/-- A predicate in normal form is true by its form alone exactly if no assignment of truth
values to conditions makes it anything but true. -/
theorem Normal.isTrivial_iff {p : Predicate} (normal : Normal accepted p) :
    p.isTrivial = true ↔ ∀ atom : Condition → Truth, p.truth atom = .yes := by
  constructor
  · intro trivial atom
    exact truth_of_isTrivial atom trivial
  · intro always
    cases restricting : p.isTrivial with
    | true => rfl
    | false =>
        have never := normal.truth_eq_no restricting
        rw [always] at never
        cases never

end TableAccess.Predicate
