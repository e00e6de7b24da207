import TableAccess.Proofs.Predicate.Compilation
import TableAccess.Proofs.Predicate.Parallel

/-!
# Parallel filters

Two filters are parallel if they have the same keys and groups, lists of equal lengths, and
related values; under a key that asks whether its column is null, both values are null or
neither is. Compiling them fails in the same way or gives parallel predicates.
-/

namespace TableAccess

/-- Whether a key compares a column in a way that makes a question of null of its own. -/
def Table.AsksNull (t : Table) (key : String) : Prop :=
  ∃ field op, t.parseKey key = .ok (field, op) ∧ (op = .eq ∨ op = .not)

namespace Filter

section

variable (asks : String → Prop) (related : Value → Value → Prop)

mutual

inductive Parallel : Filter → Filter → Prop where
  | entries {list others : List (String × FilterValue)} (each : EntriesParallel list others) :
      Parallel (.entries list) (.entries others)

inductive EntriesParallel : List (String × FilterValue) → List (String × FilterValue) → Prop where
  | nil : EntriesParallel [] []
  | cons {key : String} {given other : FilterValue} {rest others : List (String × FilterValue)}
      (first : ValueParallel key given other) (later : EntriesParallel rest others) :
      EntriesParallel ((key, given) :: rest) ((key, other) :: others)

/-- Right-hand sides of the same form under a key. -/
inductive ValueParallel : String → FilterValue → FilterValue → Prop where
  | scalar {key : String} {v w : Value} (values : related v w)
      (nullity : asks key → (v = .null ↔ w = .null)) : ValueParallel key (.scalar v) (.scalar w)
  | list {key : String} {vs ws : List Value} (values : List.Forall₂ related vs ws) :
      ValueParallel key (.list vs) (.list ws)
  | group {key : String} {members others : List Filter} (each : MembersParallel members others) :
      ValueParallel key (.group members) (.group others)

inductive MembersParallel : List Filter → List Filter → Prop where
  | nil : MembersParallel [] []
  | cons {member other : Filter} {rest others : List Filter} (first : Parallel member other)
      (later : MembersParallel rest others) : MembersParallel (member :: rest) (other :: others)

end

end

variable {asks : String → Prop} {related : Value → Value → Prop} {t : Table}

/-! ## Compilation -/

theorem ValueParallel.shape_eq {key : String} {given other : FilterValue}
    (parallel : ValueParallel asks related key given other) : given.shape = other.shape := by
  cases parallel with
  | scalar values nullity => rfl
  | list values => rfl
  | group each => rfl

theorem ValueParallel.wrongShape_eq {key : String} {given other : FilterValue}
    (parallel : ValueParallel asks related key given other) (shown : String) (expected : Shape) :
    wrongShape shown expected given = wrongShape shown expected other := by
  rw [wrongShape, wrongShape, parallel.shape_eq]

theorem ValueParallel.compileEntry {key : String} {given other : FilterValue}
    (covered : ∀ key, t.AsksNull key → asks key)
    (parallel : ValueParallel asks related key given other) :
    Agree (Predicate.Parallel related) (t.compileEntry key given) (t.compileEntry key other) := by
  have wrong := parallel.wrongShape_eq key
  refine .bind_same fun parsed read => ?_
  obtain ⟨field, op⟩ := parsed
  dsimp only
  cases takes : op.takesList with
  | true =>
      cases parallel with
      | scalar values nullity =>
          dsimp only
          rw [wrong]
          exact .error _
      | group each =>
          dsimp only
          rw [wrong]
          exact .error _
      | list values =>
          cases values with
          | nil => exact .ok (.const _)
          | cons head tail => exact .ok (.condition (.list (.cons head tail)))
  | false =>
      cases parallel with
      | scalar values nullity =>
          refine .ok (.condition (.value values fun special => ?_))
          exact nullity (covered key ⟨field, op, read, special⟩)
      | list values =>
          dsimp only
          rw [wrong]
          exact .error _
      | group each =>
          dsimp only
          rw [wrong]
          exact .error _

mutual

/-- Parallel filters are refused alike or compile to parallel predicates. -/
theorem Parallel.compile {f g : Filter} (covered : ∀ key, t.AsksNull key → asks key)
    (parallel : Parallel asks related f g) :
    Agree (Predicate.Parallel related) (t.compile f) (t.compile g) := by
  cases parallel with
  | entries each =>
      rw [Table.compile, Table.compile]
      exact (each.compile covered).bind_pure fun _ _ parts => .conj parts

theorem EntriesParallel.compile {list others : List (String × FilterValue)}
    (covered : ∀ key, t.AsksNull key → asks key)
    (parallel : EntriesParallel asks related list others) :
    Agree (List.Forall₂ (Predicate.Parallel related)) (t.compileEntries list)
      (t.compileEntries others) := by
  cases parallel with
  | nil => exact .ok .nil
  | cons first later =>
      rw [Table.compileEntries, Table.compileEntries]
      refine (first.compile covered).bind fun _ _ head _ _ => ?_
      exact (later.compile covered).bind_pure fun _ _ tail => .cons head tail

theorem ValueParallel.compile {key : String} {given other : FilterValue}
    (covered : ∀ key, t.AsksNull key → asks key)
    (parallel : ValueParallel asks related key given other) :
    Agree (Predicate.Parallel related) (t.compileValue key given) (t.compileValue key other) := by
  by_cases grouped : key = orKey
  · subst grouped
    cases parallel with
    | group each =>
        rw [Table.compileValue, Table.compileValue, if_pos rfl, if_pos rfl]
        exact (each.compile covered).bind_pure fun _ _ parts => .disj parts
    | scalar values nullity =>
        rw [Table.compileValue, Table.compileValue, if_pos rfl, if_pos rfl]
        exact .error _
    | list values =>
        rw [Table.compileValue, Table.compileValue, if_pos rfl, if_pos rfl]
        exact .error _
  · rw [Table.compileValue_of_ne grouped, Table.compileValue_of_ne grouped]
    exact parallel.compileEntry covered

theorem MembersParallel.compile {members others : List Filter}
    (covered : ∀ key, t.AsksNull key → asks key)
    (parallel : MembersParallel asks related members others) :
    Agree (List.Forall₂ (Predicate.Parallel related)) (t.compileMembers members)
      (t.compileMembers others) := by
  cases parallel with
  | nil => exact .ok .nil
  | cons first later =>
      rw [Table.compileMembers, Table.compileMembers]
      refine (first.compile covered).bind fun _ _ head _ _ => ?_
      refine .refuse (by rw [head.isUnrestricted_eq]) fun _ => ?_
      exact (later.compile covered).bind_pure fun _ _ tail => .cons head tail

end

/-! ## Values -/

mutual

/-- The values of a filter, from left to right. -/
def values : Filter → List Value
  | .entries list => entryValues list

def entryValues : List (String × FilterValue) → List Value
  | [] => []
  | (_, given) :: rest => givenValues given ++ entryValues rest

def givenValues : FilterValue → List Value
  | .scalar v => [v]
  | .list vs => vs
  | .group members => memberValues members

def memberValues : List Filter → List Value
  | [] => []
  | member :: rest => member.values ++ memberValues rest

end

variable {weaker : Value → Value → Prop}

mutual

/-- Parallel filters are so for every relation that the given one implies of their values. -/
theorem Parallel.weaken {f g : Filter} (parallel : Parallel asks related f g)
    (weaken : ∀ v ∈ f.values, ∀ w ∈ g.values, related v w → weaker v w) :
    Parallel asks weaker f g := by
  cases parallel with
  | entries each => exact .entries (each.weaken weaken)

theorem EntriesParallel.weaken {list others : List (String × FilterValue)}
    (parallel : EntriesParallel asks related list others)
    (weaken : ∀ v ∈ entryValues list, ∀ w ∈ entryValues others, related v w → weaker v w) :
    EntriesParallel asks weaker list others := by
  cases parallel with
  | nil => exact .nil
  | cons first later =>
      refine .cons (first.weaken fun v here w there => ?_) (later.weaken fun v here w there => ?_)
      · exact weaken v (List.mem_append_left _ here) w (List.mem_append_left _ there)
      · exact weaken v (List.mem_append_right _ here) w (List.mem_append_right _ there)

theorem ValueParallel.weaken {key : String} {given other : FilterValue}
    (parallel : ValueParallel asks related key given other)
    (weaken : ∀ v ∈ givenValues given, ∀ w ∈ givenValues other, related v w → weaker v w) :
    ValueParallel asks weaker key given other := by
  cases parallel with
  | scalar values nullity =>
      have whole := weaken _ (List.mem_singleton_self _) _ (List.mem_singleton_self _) values
      exact .scalar whole nullity
  | list values => exact .list (forall₂_of_mem values weaken)
  | group each => exact .group (each.weaken weaken)

theorem MembersParallel.weaken {members others : List Filter}
    (parallel : MembersParallel asks related members others)
    (weaken : ∀ v ∈ memberValues members, ∀ w ∈ memberValues others, related v w → weaker v w) :
    MembersParallel asks weaker members others := by
  cases parallel with
  | nil => exact .nil
  | cons first later =>
      refine .cons (first.weaken fun v here w there => ?_) (later.weaken fun v here w there => ?_)
      · exact weaken v (List.mem_append_left _ here) w (List.mem_append_left _ there)
      · exact weaken v (List.mem_append_right _ here) w (List.mem_append_right _ there)

end

end Filter

end TableAccess
