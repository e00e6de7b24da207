import TableAccess.Predicate.Truth

/-!
# Laws of the three truth values

The neutral and the absorbing value of each connective, and what they mean for
conjunctions and disjunctions of lists: an absorbing part decides the whole, and
neutral parts can be left out.
-/

namespace TableAccess.Truth

@[simp] theorem yes_and (x : Truth) : yes.and x = x := by
  cases x <;> rfl

@[simp] theorem and_yes (x : Truth) : x.and yes = x := by
  cases x <;> rfl

@[simp] theorem no_and (x : Truth) : no.and x = no := by
  cases x <;> rfl

@[simp] theorem and_no (x : Truth) : x.and no = no := by
  cases x <;> rfl

@[simp] theorem no_or (x : Truth) : no.or x = x := by
  cases x <;> rfl

@[simp] theorem or_no (x : Truth) : x.or no = x := by
  cases x <;> rfl

@[simp] theorem yes_or (x : Truth) : yes.or x = yes := by
  cases x <;> rfl

@[simp] theorem or_yes (x : Truth) : x.or yes = yes := by
  cases x <;> rfl

@[simp] theorem holds_ofBool (b : Bool) : (ofBool b).holds = b := by
  cases b <;> rfl

theorem holds_and (x y : Truth) : (x.and y).holds = (x.holds && y.holds) := by
  cases x <;> cases y <;> rfl

/-- One false part makes a conjunction false. -/
theorem all_eq_no_of_mem {parts : List Truth} (member : no ∈ parts) : all parts = no := by
  induction parts with
  | nil => cases member
  | cons head rest ih =>
      rcases List.mem_cons.mp member with rfl | later
      · rw [all_cons, no_and]
      · rw [all_cons, ih later, and_no]

/-- A truth said several times is this truth. -/
theorem all_replicate (n : Nat) (truth : Truth) : all (List.replicate (n + 1) truth) = truth := by
  induction n with
  | zero => rw [List.replicate_one, all_cons, all_nil, and_yes]
  | succ n ih =>
      rw [List.replicate_succ, all_cons, ih]
      cases truth <;> rfl

/-- One true part makes a disjunction true. -/
theorem any_eq_yes_of_mem {parts : List Truth} (member : yes ∈ parts) : any parts = yes := by
  induction parts with
  | nil => cases member
  | cons head rest ih =>
      rcases List.mem_cons.mp member with rfl | later
      · rw [any_cons, yes_or]
      · rw [any_cons, ih later, or_yes]

/-- A disjunction of nothing but false parts is false. -/
theorem any_eq_no {parts : List Truth} (refuted : ∀ part ∈ parts, part = no) : any parts = no := by
  induction parts with
  | nil => rfl
  | cons head rest ih =>
      rw [any_cons, refuted head List.mem_cons_self, no_or]
      exact ih fun part later => refuted part (List.mem_cons_of_mem _ later)

/-- A disjunction is true only if one of its parts is. -/
theorem any_eq_yes_iff {parts : List Truth} : any parts = yes ↔ yes ∈ parts := by
  refine ⟨fun holds => ?_, any_eq_yes_of_mem⟩
  induction parts with
  | nil => cases holds
  | cons head rest ih =>
      rw [any_cons] at holds
      cases head with
      | yes => exact List.mem_cons_self
      | no => exact List.mem_cons_of_mem _ (ih (by rwa [no_or] at holds))
      | unknown =>
          have later : any rest = yes := by
            cases found : any rest <;> rw [found] at holds <;> first | rfl | cases holds
          exact List.mem_cons_of_mem _ (ih later)

/-- A part that is not false keeps a disjunction from being false. -/
theorem any_ne_no_of_mem {parts : List Truth} {part : Truth} (member : part ∈ parts)
    (possible : part ≠ no) : any parts ≠ no := by
  induction parts with
  | nil => cases member
  | cons head rest ih =>
      rw [any_cons]
      intro refuted
      have both : head = no ∧ any rest = no := by
        cases head <;> cases found : any rest <;> rw [found] at refuted <;>
          first | exact ⟨rfl, rfl⟩ | cases refuted
      rcases List.mem_cons.mp member with rfl | later
      · exact possible both.1
      · exact ih later both.2

/-- The opposite of a disjunction is the conjunction of the opposites. -/
theorem not_any (parts : List Truth) : (any parts).not = all (parts.map Truth.not) := by
  induction parts with
  | nil => rfl
  | cons head rest ih =>
      rw [any_cons, List.map_cons, all_cons, ← ih]
      cases head <;> cases any rest <;> rfl

/-- The order of the parts of a conjunction does not matter. -/
theorem all_eq_of_perm {parts others : List Truth} (perm : parts.Perm others) :
    all parts = all others := by
  induction perm with
  | nil => rfl
  | cons head _ ih => rw [all_cons, all_cons, ih]
  | swap first second rest =>
      simp only [all_cons]
      cases first <;> cases second <;> cases all rest <;> rfl
  | trans _ _ first second => exact first.trans second

/-- The order of the parts of a disjunction does not matter. -/
theorem any_eq_of_perm {parts others : List Truth} (perm : parts.Perm others) :
    any parts = any others := by
  induction perm with
  | nil => rfl
  | cons head _ ih => rw [any_cons, any_cons, ih]
  | swap first second rest =>
      simp only [any_cons]
      cases first <;> cases second <;> cases any rest <;> rfl
  | trans _ _ first second => exact first.trans second

variable {α : Type} {kept : α → Bool} {f : α → Truth}

/-- True parts can be left out of a conjunction. -/
theorem all_map_filter {list : List α} (dropped : ∀ a ∈ list, kept a = false → f a = yes) :
    all ((list.filter kept).map f) = all (list.map f) := by
  induction list with
  | nil => rfl
  | cons head rest ih =>
      have later := ih fun a member => dropped a (List.mem_cons_of_mem _ member)
      cases keeps : kept head with
      | true => simp [keeps, later]
      | false => simp [keeps, later, dropped head List.mem_cons_self keeps]

/-- False parts can be left out of a disjunction. -/
theorem any_map_filter {list : List α} (dropped : ∀ a ∈ list, kept a = false → f a = no) :
    any ((list.filter kept).map f) = any (list.map f) := by
  induction list with
  | nil => rfl
  | cons head rest ih =>
      have later := ih fun a member => dropped a (List.mem_cons_of_mem _ member)
      cases keeps : kept head with
      | true => simp [keeps, later]
      | false => simp [keeps, later, dropped head List.mem_cons_self keeps]

end TableAccess.Truth
