import Mathlib.Data.List.Forall2
import TableAccess.Predicate.Compile
import TableAccess.Proofs.Outcome

/-!
# Compilation by rules

What a successful compilation has done, entry by entry. A property of filters and
their predicates holds of every compilation if it holds of plain entries and passes
from the members of a group to the group, and from the entries of a filter to the
filter.
-/

namespace TableAccess

/-! ## Lists related member by member -/

theorem forall_of_forall₂ {α β : Type} {R : α → β → Prop} {holds : β → Prop} {first : List α}
    {second : List β} (related : List.Forall₂ R first second)
    (each : ∀ a b, R a b → holds b) : ∀ b ∈ second, holds b := by
  induction related with
  | nil => exact fun _ member => nomatch member
  | cons head _ ih => exact List.forall_mem_cons.mpr ⟨each _ _ head, ih⟩

theorem forall_iff_of_forall₂ {α β : Type} {holds : α → Prop} {kept : β → Prop} {first : List α}
    {second : List β} (related : List.Forall₂ (fun a b => kept b ↔ holds a) first second) :
    (∀ b ∈ second, kept b) ↔ ∀ a ∈ first, holds a := by
  induction related with
  | nil => simp
  | cons head _ ih => rw [List.forall_mem_cons, List.forall_mem_cons, head, ih]

theorem map_eq_of_forall₂ {α β γ : Type} {f : α → γ} {g : β → γ} {first : List α}
    {second : List β} (related : List.Forall₂ (fun a b => g b = f a) first second) :
    second.map g = first.map f := by
  induction related with
  | nil => rfl
  | cons same _ ih => rw [List.map_cons, List.map_cons, same, ih]

/-- Lists are related by every relation that the given one implies of their members. -/
theorem forall₂_of_mem {α β : Type} {related weaker : α → β → Prop} {first : List α}
    {second : List β} (each : List.Forall₂ related first second)
    (weaken : ∀ a ∈ first, ∀ b ∈ second, related a b → weaker a b) :
    List.Forall₂ weaker first second := by
  induction each with
  | nil => exact .nil
  | cons head _ ih =>
      have first := weaken _ List.mem_cons_self _ List.mem_cons_self head
      refine .cons first (ih fun a here b there => ?_)
      exact weaken a (List.mem_cons_of_mem _ here) b (List.mem_cons_of_mem _ there)

theorem exists_of_forall₂ {α β : Type} {related : α → β → Prop} {first : List α} {second : List β}
    (each : List.Forall₂ related first second) {a : α} (member : a ∈ first) :
    ∃ b ∈ second, related a b := by
  induction each with
  | nil => cases member
  | cons head _ ih =>
      rcases List.mem_cons.mp member with rfl | later
      · exact ⟨_, List.mem_cons_self, head⟩
      · obtain ⟨b, found, values⟩ := ih later
        exact ⟨b, List.mem_cons_of_mem _ found, values⟩

/-! ## Steps of a compilation -/

namespace Table

/-- A plain entry compiles to the outcome of membership in an empty list, or to a
condition on the column that its key names. -/
theorem compileEntry_eq_ok {t : Table} {key : String} {given : FilterValue} {part : Predicate}
    (compiled : t.compileEntry key given = .ok part) :
    ∃ field op, t.parseKey key = .ok (field, op) ∧
      ((op.takesList = true ∧ given = .list [] ∧ part = .const (op == .notIn)) ∨
        (∃ v vs, op.takesList = true ∧ given = .list (v :: vs) ∧
          part = .condition ⟨t.name, field, op, .list (v :: vs)⟩) ∨
        ∃ v, op.takesList = false ∧ given = .scalar v ∧
          part = .condition ⟨t.name, field, op, .value v⟩) := by
  unfold compileEntry at compiled
  obtain ⟨⟨field, op⟩, parsed, compiled⟩ := bind_eq_ok_iff.mp compiled
  refine ⟨field, op, parsed, ?_⟩
  dsimp only at compiled
  cases takes : op.takesList with
  | true =>
      rw [takes] at compiled
      cases given with
      | list vs =>
          cases vs with
          | nil => exact .inl ⟨rfl, rfl, (pure_eq_ok_iff.mp compiled).symm⟩
          | cons v vs => exact .inr (.inl ⟨v, vs, rfl, rfl, (pure_eq_ok_iff.mp compiled).symm⟩)
      | scalar v => cases compiled
      | group members => cases compiled
  | false =>
      rw [takes] at compiled
      cases given with
      | scalar v => exact .inr (.inr ⟨v, rfl, rfl, (pure_eq_ok_iff.mp compiled).symm⟩)
      | list vs => cases compiled
      | group members => cases compiled

theorem compile_eq_ok_iff {t : Table} {list : List (String × FilterValue)} {p : Predicate} :
    t.compile (.entries list) = .ok p ↔
      ∃ parts, t.compileEntries list = .ok parts ∧ .conj parts = p := by
  simp only [compile, bind_eq_ok_iff, pure_eq_ok_iff]

theorem compileEntries_cons_eq_ok_iff {t : Table} {key : String} {given : FilterValue}
    {rest : List (String × FilterValue)} {parts : List Predicate} :
    t.compileEntries ((key, given) :: rest) = .ok parts ↔
      ∃ part, t.compileValue key given = .ok part ∧
        ∃ others, t.compileEntries rest = .ok others ∧ part :: others = parts := by
  simp only [compileEntries, bind_eq_ok_iff, pure_eq_ok_iff]

theorem compileValue_of_ne {t : Table} {key : String} (plain : key ≠ orKey)
    (given : FilterValue) : t.compileValue key given = t.compileEntry key given := by
  cases given with
  | scalar v => rw [compileValue, if_neg plain]
  | list vs => rw [compileValue, if_neg plain]
  | group members => rw [compileValue, if_neg plain]

theorem compileValue_group_eq_ok_iff {t : Table} {members : List Filter} {part : Predicate} :
    t.compileValue orKey (.group members) = .ok part ↔
      ∃ parts, t.compileMembers members = .ok parts ∧ .disj parts = part := by
  simp only [compileValue, if_pos, bind_eq_ok_iff, pure_eq_ok_iff]

theorem compileMembers_cons_eq_ok_iff {t : Table} {member : Filter} {rest : List Filter}
    {parts : List Predicate} :
    t.compileMembers (member :: rest) = .ok parts ↔
      ∃ part, t.compile member = .ok part ∧ part.isUnrestricted = false ∧
        ∃ others, t.compileMembers rest = .ok others ∧ part :: others = parts := by
  rw [compileMembers, bind_eq_ok_iff]
  refine exists_congr fun part => and_congr_right fun _ => ?_
  cases part.isUnrestricted with
  | true => exact ⟨fun thrown => (nomatch thrown), fun ⟨same, _⟩ => (nomatch same)⟩
  | false =>
      rw [and_iff_right rfl]
      exact bind_eq_ok_iff.trans (exists_congr fun _ => and_congr_right fun _ => pure_eq_ok_iff)

/-- Rule induction on successful compilations. -/
theorem compile_induction {t : Table} (whole : Filter → Predicate → Prop)
    (entry : String → FilterValue → Predicate → Prop)
    (plain : ∀ key given part, key ≠ orKey → t.compileEntry key given = .ok part →
      entry key given part)
    (group : ∀ members parts, List.Forall₂ whole members parts →
      (∀ part ∈ parts, part.isUnrestricted = false) → entry orKey (.group members) (.disj parts))
    (filter : ∀ list parts, List.Forall₂ (fun e part => entry e.1 e.2 part) list parts →
      whole (.entries list) (.conj parts))
    {f : Filter} {p : Predicate} (compiled : t.compile f = .ok p) : whole f p := by
  have plainly {key : String} (different : key ≠ orKey) (given : FilterValue) (part : Predicate)
      (compiled : t.compileValue key given = .ok part) : entry key given part :=
    plain key given part different (compileValue_of_ne different given ▸ compiled)
  -- one motive for each of the functions that compile filters, entries, values and members
  refine (compile.mutual_induct
    (fun f => ∀ p, t.compile f = .ok p → whole f p)
    (fun list => ∀ parts, t.compileEntries list = .ok parts →
      List.Forall₂ (fun e part => entry e.1 e.2 part) list parts)
    (fun key given => ∀ part, t.compileValue key given = .ok part → entry key given part)
    (fun members => ∀ parts, t.compileMembers members = .ok parts →
      List.Forall₂ whole members parts ∧ ∀ part ∈ parts, part.isUnrestricted = false)
    ?group (fun _ _ different _ => plainly different _ _)
    ?scalar (fun _ _ different _ => plainly different _ _)
    ?list (fun _ _ different _ => plainly different _ _)
    ?filter ?noMember ?member ?noEntry ?entry).1 f p compiled
  case group =>
    intro members ih part compiled
    obtain ⟨parts, ended, rfl⟩ := compileValue_group_eq_ok_iff.mp compiled
    exact group members parts (ih parts ended).1 (ih parts ended).2
  case scalar =>
    intro v part compiled
    rw [compileValue, if_pos rfl] at compiled
    cases compiled
  case list =>
    intro vs part compiled
    rw [compileValue, if_pos rfl] at compiled
    cases compiled
  case filter =>
    intro list ih p compiled
    obtain ⟨parts, ended, rfl⟩ := compile_eq_ok_iff.mp compiled
    exact filter list parts (ih parts ended)
  case noMember =>
    intro parts compiled
    cases compiled
    exact ⟨.nil, fun _ member => nomatch member⟩
  case member =>
    intro member rest ihMember ihRest parts compiled
    obtain ⟨part, first, restricts, others, later, rfl⟩ :=
      compileMembers_cons_eq_ok_iff.mp compiled
    obtain ⟨related, restricting⟩ := ihRest others later
    exact ⟨.cons (ihMember part first) related, List.forall_mem_cons.mpr ⟨restricts, restricting⟩⟩
  case noEntry =>
    intro parts compiled
    cases compiled
    exact .nil
  case entry =>
    intro key given rest ihEntry ihRest parts compiled
    obtain ⟨part, first, others, later, rfl⟩ := compileEntries_cons_eq_ok_iff.mp compiled
    exact .cons (ihEntry part first) (ihRest others later)

end Table

end TableAccess
