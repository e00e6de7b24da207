import TableAccess.Predicate.Basic
import TableAccess.Proofs.Truth

/-!
# Folding

What the folding constructors can return, and what it means. A folded conjunction or
disjunction has the truth of its parts whatever their shape, constants anywhere
included; the one exception is the empty disjunction, which restricts nothing.
-/

namespace TableAccess.Predicate

/-! ## The forms of a fold -/

theorem eq_const_of_isConst {p : Predicate} {outcome : Bool} (fixed : p.isConst outcome = true) :
    p = const outcome := by
  cases p with
  | const other => simpa [isConst] using fixed
  | unrestricted => cases fixed
  | condition c => cases fixed
  | all parts => cases fixed
  | any parts => cases fixed

theorem eq_of_isTrivial {p : Predicate} (trivial : p.isTrivial = true) :
    p = unrestricted ∨ p = const true := by
  cases p with
  | unrestricted => exact .inl rfl
  | const outcome => exact .inr (eq_const_of_isConst trivial)
  | condition c => cases trivial
  | all parts => cases trivial
  | any parts => cases trivial

/-- A folded conjunction is a constant, its only part that restricts something, or the
conjunction of at least two such parts. -/
theorem conj_cases {motive : Predicate → Prop} (parts : List Predicate)
    (refuted : (∃ part ∈ parts, part.isConst false = true) → motive (const false))
    (empty : (∀ part ∈ parts, part.isUnrestricted = true) → motive unrestricted)
    (settled : (∀ part ∈ parts, part.isTrivial = true) →
      (∃ part ∈ parts, part.isConst true = true) → motive (const true))
    (single : ∀ part, (∀ other ∈ parts, other.isConst false = false) →
      (parts.filter fun part => !part.isTrivial) = [part] → motive part)
    (several : ∀ kept, (∀ other ∈ parts, other.isConst false = false) →
      (parts.filter fun part => !part.isTrivial) = kept → 2 ≤ kept.length → motive (all kept)) :
    motive (conj parts) := by
  unfold conj
  split
  · rename_i found
    exact refuted (List.any_eq_true.mp found)
  · rename_i absent
    have possible : ∀ other ∈ parts, other.isConst false = false := by
      simpa using absent
    split
    · rename_i none
      have trivial : ∀ part ∈ parts, part.isTrivial = true := by
        simpa [List.filter_eq_nil_iff] using none
      split
      · rename_i found
        exact settled trivial (List.any_eq_true.mp found)
      · rename_i absent
        refine empty fun part member => ?_
        have notTrue : part.isConst true = false := by
          simpa using fun found => absent (List.any_eq_true.mpr ⟨part, member, found⟩)
        simpa [isTrivial, notTrue] using trivial part member
    · rename_i part one
      exact single part possible one
    · rename_i notNil notOne
      refine several _ possible rfl ?_
      generalize parts.filter (fun part => !part.isTrivial) = kept at notNil notOne
      match kept with
      | [] => exact absurd rfl notNil
      | [part] => exact absurd rfl (notOne part)
      | first :: second :: rest => simp

section Conditions

variable {α : Type} {question : α → Condition}

theorem filter_conditions (list : List α) :
    (list.map fun a => condition (question a)).filter (fun part => !part.isTrivial) =
      list.map fun a => condition (question a) :=
  List.filter_eq_self.mpr (List.forall_mem_map.mpr fun _ _ => rfl)

/-- A conjunction of conditions is the only one, or keeps all of them. -/
theorem conj_conditions (question : α → Condition) (first : α) (rest : List α) :
    conj ((first :: rest).map fun a => condition (question a)) =
      if rest = [] then condition (question first)
      else all ((first :: rest).map fun a => condition (question a)) := by
  have possible : ((first :: rest).map fun a => condition (question a)).any (isConst false) =
      false := by
    rw [List.any_eq_false]
    exact List.forall_mem_map.mpr fun _ _ => Bool.false_ne_true
  unfold conj
  rw [possible, if_neg Bool.false_ne_true, filter_conditions]
  cases rest with
  | nil => rfl
  | cons second others => rfl

end Conditions

/-- A folded disjunction of some parts is a constant, its only part that is not false,
or the disjunction of at least two such parts. -/
theorem disj_cases {motive : Predicate → Prop} (parts : List Predicate)
    (empty : parts = [] → motive unrestricted)
    (settled : (∃ part ∈ parts, part.isTrivial = true) → motive (const true))
    (refuted : parts ≠ [] → (∀ part ∈ parts, part.isConst false = true) → motive (const false))
    (single : ∀ part, (∀ other ∈ parts, other.isTrivial = false) →
      (parts.filter fun part => !part.isConst false) = [part] → motive part)
    (several : ∀ kept, (∀ other ∈ parts, other.isTrivial = false) →
      (parts.filter fun part => !part.isConst false) = kept → 2 ≤ kept.length →
        motive (any kept)) :
    motive (disj parts) := by
  unfold disj
  split
  · rename_i none
    exact empty (List.isEmpty_iff.mp none)
  · rename_i some
    split
    · rename_i found
      exact settled (List.any_eq_true.mp found)
    · rename_i absent
      have restricting : ∀ other ∈ parts, other.isTrivial = false := by
        simpa using absent
      split
      · rename_i none
        refine refuted (fun none => some (List.isEmpty_iff.mpr none)) ?_
        simpa [List.filter_eq_nil_iff] using none
      · rename_i part one
        exact single part restricting one
      · rename_i notNil notOne
        refine several _ restricting rfl ?_
        generalize parts.filter (fun part => !part.isConst false) = kept at notNil notOne
        match kept with
        | [] => exact absurd rfl notNil
        | [part] => exact absurd rfl (notOne part)
        | first :: second :: rest => simp

/-! ## The truth of a fold -/

theorem truth_of_isTrivial (atom : Condition → Truth) {p : Predicate}
    (trivial : p.isTrivial = true) : p.truth atom = .yes := by
  rcases eq_of_isTrivial trivial with rfl | rfl
  · rfl
  · rfl

theorem truth_of_isConst (atom : Condition → Truth) {p : Predicate} {outcome : Bool}
    (fixed : p.isConst outcome = true) : p.truth atom = .ofBool outcome := by
  rw [eq_const_of_isConst fixed, truth]

/-- Leaving out the trivial parts keeps the truth of a conjunction. -/
theorem all_truth_restricting (atom : Condition → Truth) (parts : List Predicate) :
    Truth.all ((parts.filter fun part => !part.isTrivial).map (truth atom)) =
      Truth.all (parts.map (truth atom)) :=
  Truth.all_map_filter fun part _ dropped => truth_of_isTrivial atom (by simpa using dropped)

/-- Leaving out the false parts keeps the truth of a disjunction. -/
theorem any_truth_possible (atom : Condition → Truth) (parts : List Predicate) :
    Truth.any ((parts.filter fun part => !part.isConst false).map (truth atom)) =
      Truth.any (parts.map (truth atom)) :=
  Truth.any_map_filter fun part _ dropped => truth_of_isConst atom (by simpa using dropped)

/-- A folded conjunction is as true as the conjunction of its parts. -/
theorem truth_conj (atom : Condition → Truth) (parts : List Predicate) :
    (conj parts).truth atom = .all (parts.map (truth atom)) := by
  have trivially (trivial : ∀ part ∈ parts, part.isTrivial = true) :
      Truth.all (parts.map (truth atom)) = .yes := by
    have none : (parts.filter fun part => !part.isTrivial) = [] := by
      simpa [List.filter_eq_nil_iff] using trivial
    rw [← all_truth_restricting, none, List.map_nil, Truth.all_nil]
  refine conj_cases (motive := fun p => p.truth atom = _) parts ?_ ?_ ?_ ?_ ?_
  · rintro ⟨part, member, fixed⟩
    have false : part.truth atom = .no := truth_of_isConst atom fixed
    exact (Truth.all_eq_no_of_mem (List.mem_map.mpr ⟨part, member, false⟩)).symm
  · intro free
    exact (trivially fun part member => by simp [isTrivial, free part member]).symm
  · intro trivial _
    exact (trivially trivial).symm
  · intro part _ one
    rw [← all_truth_restricting, one]
    simp
  · intro kept _ eq _
    rw [truth, truths_eq_map, ← all_truth_restricting atom parts, eq]

/-- A folded disjunction of some parts is as true as the disjunction of its parts. -/
theorem truth_disj (atom : Condition → Truth) {parts : List Predicate} (nonempty : parts ≠ []) :
    (disj parts).truth atom = .any (parts.map (truth atom)) := by
  refine disj_cases (motive := fun p => p.truth atom = _) parts ?_ ?_ ?_ ?_ ?_
  · intro none
    exact absurd none nonempty
  · rintro ⟨part, member, trivial⟩
    have true : part.truth atom = .yes := truth_of_isTrivial atom trivial
    exact (Truth.any_eq_yes_of_mem (List.mem_map.mpr ⟨part, member, true⟩)).symm
  · intro _ refuted
    have none : (parts.filter fun part => !part.isConst false) = [] := by
      simpa [List.filter_eq_nil_iff] using refuted
    rw [← any_truth_possible, none]
    rfl
  · intro part _ one
    rw [← any_truth_possible, one]
    simp
  · intro kept _ eq _
    rw [truth, truths_eq_map, ← any_truth_possible atom parts, eq]

/-! ## Folds that restrict nothing -/

theorem isUnrestricted_iff {p : Predicate} : p.isUnrestricted = true ↔ p = unrestricted := by
  refine ⟨fun free => ?_, fun same => same ▸ rfl⟩
  cases p with
  | unrestricted => rfl
  | const outcome => cases free
  | condition c => cases free
  | all parts => cases free
  | any parts => cases free

theorem isTrivial_of_isUnrestricted {p : Predicate} (free : p.isUnrestricted = true) :
    p.isTrivial = true := by
  rw [isTrivial, free, Bool.true_or]

theorem isUnrestricted_of_isConst {p : Predicate} {outcome : Bool}
    (fixed : p.isConst outcome = true) : p.isUnrestricted = false := by
  rw [eq_const_of_isConst fixed]
  rfl

/-- The only part that a filter keeps is one of the parts, and the filter accepts it. -/
theorem mem_of_filter_eq_singleton {kept : Predicate → Bool} {parts : List Predicate}
    {part : Predicate} (one : parts.filter kept = [part]) : part ∈ parts ∧ kept part = true :=
  List.mem_filter.mp (one ▸ List.mem_singleton_self part)

/-- A folded conjunction restricts nothing exactly if none of its parts does. -/
theorem isUnrestricted_conj (parts : List Predicate) :
    (conj parts).isUnrestricted = true ↔ ∀ part ∈ parts, part.isUnrestricted = true := by
  have blocked {part : Predicate} (member : part ∈ parts)
      (restricts : part.isUnrestricted = false) :
      ¬ ∀ part ∈ parts, part.isUnrestricted = true := fun free => by
    rw [free part member] at restricts
    cases restricts
  have restricts {part : Predicate} (notTrivial : (!part.isTrivial) = true) :
      part.isUnrestricted = false := by
    cases free : part.isUnrestricted with
    | false => rfl
    | true => simp [isTrivial_of_isUnrestricted free] at notTrivial
  refine conj_cases (motive := fun p => p.isUnrestricted = true ↔ _) parts ?_ ?_ ?_ ?_ ?_
  · rintro ⟨part, member, fixed⟩
    simpa [isUnrestricted] using blocked member (isUnrestricted_of_isConst fixed)
  · intro free
    simpa [isUnrestricted] using free
  · rintro _ ⟨part, member, fixed⟩
    simpa [isUnrestricted] using blocked member (isUnrestricted_of_isConst fixed)
  · intro part _ one
    obtain ⟨member, notTrivial⟩ := mem_of_filter_eq_singleton one
    rw [restricts notTrivial]
    simpa using blocked member (restricts notTrivial)
  · intro kept _ eq enough
    obtain ⟨part, member⟩ := List.exists_mem_of_length_pos (Nat.lt_of_lt_of_le Nat.two_pos enough)
    obtain ⟨member, notTrivial⟩ := List.mem_filter.mp (eq ▸ member)
    simpa [isUnrestricted] using blocked member (restricts notTrivial)

/-- A folded disjunction restricts nothing only if it is empty. -/
theorem isUnrestricted_disj (parts : List Predicate) :
    (disj parts).isUnrestricted = true ↔ parts = [] := by
  have nonempty {part : Predicate} (member : part ∈ parts) : parts ≠ [] :=
    List.ne_nil_of_mem member
  refine disj_cases (motive := fun p => p.isUnrestricted = true ↔ _) parts ?_ ?_ ?_ ?_ ?_
  · intro none
    simpa [isUnrestricted] using none
  · rintro ⟨part, member, _⟩
    simpa [isUnrestricted] using nonempty member
  · intro some _
    simpa [isUnrestricted] using some
  · intro part restricting one
    obtain ⟨member, _⟩ := mem_of_filter_eq_singleton one
    have restricts : part.isUnrestricted = false := by
      have notTrivial := restricting part member
      rw [isTrivial, Bool.or_eq_false_iff] at notTrivial
      exact notTrivial.1
    simpa [restricts] using nonempty member
  · intro kept _ eq enough
    obtain ⟨part, member⟩ := List.exists_mem_of_length_pos (Nat.lt_of_lt_of_le Nat.two_pos enough)
    obtain ⟨member, _⟩ := List.mem_filter.mp (eq ▸ member)
    simpa [isUnrestricted] using nonempty member

/-! ## Folding arbitrary predicates -/

/-- Folding keeps the truth of arbitrary parts under every interpretation of the conditions, except
that the empty disjunction is true. A folded conjunction restricts nothing exactly if none of its
parts restricts anything, a folded disjunction exactly if it has no parts. -/
theorem folds_keep_truth (parts : List Predicate) :
    (∀ atom : Condition → Truth, (conj parts).truth atom = .all (parts.map (truth atom))) ∧
    (∀ atom : Condition → Truth, (disj parts).truth atom =
      if parts = [] then .yes else .any (parts.map (truth atom))) ∧
    (conj parts = unrestricted ↔ ∀ part ∈ parts, part = unrestricted) ∧
    (disj parts = unrestricted ↔ parts = []) := by
  refine ⟨fun atom => truth_conj atom parts, fun atom => ?_, ?_, ?_⟩
  · split
    · rename_i none
      rw [none]
      rfl
    · rename_i nonempty
      exact truth_disj atom nonempty
  · rw [← isUnrestricted_iff, isUnrestricted_conj]
    simp only [isUnrestricted_iff]
  · rw [← isUnrestricted_iff, isUnrestricted_disj]

/-- What is true by its form alone is still told apart from what restricts nothing. -/
example : conj [unrestricted, const true] = const true ∧ disj [unrestricted] = const true ∧
    conj [unrestricted, all []] = all [] := ⟨rfl, rfl, rfl⟩

end TableAccess.Predicate
