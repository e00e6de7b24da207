import TableAccess.Proofs.Filter.WellFormed
import TableAccess.Proofs.Mutation.Guard

/-!
# Rearranged filters

The order in which a filter is written does not matter: neither that of its entries, nor that of the
members of its groups, nor that of what stands within a member, however deep. Rearranged filters are
accepted together, mean the same of every row, and are refused together for want of a condition.
Which error is reported for a filter that is not accepted does depend on the order, but it is never
that one.
-/

namespace TableAccess

def Error.wantsCondition : Error → Bool
  | .missingCondition .. => true
  | _ => false

namespace Filter

/-- Filters that differ only in the order of entries and of members of groups, at any depth. -/
inductive Rearranged : Filter → Filter → Prop where
  | entries {list others : List (String × FilterValue)} (perm : list.Perm others) :
      Rearranged (.entries list) (.entries others)
  | group (before after : List (String × FilterValue)) (key : String) {members others : List Filter}
      (perm : members.Perm others) :
      Rearranged (.entries (before ++ (key, .group members) :: after))
        (.entries (before ++ (key, .group others) :: after))
  | member (before after : List (String × FilterValue)) (key : String) (first last : List Filter)
      {member other : Filter} (inner : Rearranged member other) :
      Rearranged (.entries (before ++ (key, .group (first ++ member :: last)) :: after))
        (.entries (before ++ (key, .group (first ++ other :: last)) :: after))
  | trans {f g h : Filter} (once : Rearranged f g) (again : Rearranged g h) : Rearranged f h

variable {t : Table}

/-! ## What an entry contributes -/

/-- Groups that are in order together, and mean the same as entries of any key. -/
structure GroupsAgree (t : Table) (members others : List Filter) : Prop where
  empty : members = [] ↔ others = []
  sound : memberDefects t members = [] ↔ memberDefects t others = []
  truth : ∀ atom : Condition → Truth,
    Truth.any (memberTruths (t.entryTruth atom) members) =
      .any (memberTruths (t.entryTruth atom) others)

/-- Filters that are in order together, ask for something together, and mean the same. -/
structure Agreeing (t : Table) (f g : Filter) : Prop where
  sound : f.defects t = [] ↔ g.defects t = []
  vacuous : f.isVacuous = g.isVacuous
  truth : ∀ atom : Condition → Truth, f.truth (t.entryTruth atom) = g.truth (t.entryTruth atom)

theorem GroupsAgree.of_perm {members others : List Filter} (perm : members.Perm others) :
    GroupsAgree t members others where
  empty := by rw [← List.length_eq_zero_iff, perm.length_eq, List.length_eq_zero_iff]
  sound := by simp only [memberDefects_eq_nil_iff, perm.mem_iff]
  truth atom := by
    rw [memberTruths_eq_map, memberTruths_eq_map]
    exact Truth.any_eq_of_perm (perm.map _)

theorem GroupsAgree.of_member {first last : List Filter} {member other : Filter}
    (agree : Agreeing t member other) :
    GroupsAgree t (first ++ member :: last) (first ++ other :: last) where
  empty := by simp
  sound := by
    simp only [memberDefects_eq_nil_iff, List.forall_mem_append, List.forall_mem_cons, agree.sound,
      agree.vacuous]
  truth atom := by
    simp only [memberTruths_eq_map, List.map_append, List.map_cons, agree.truth atom]

namespace GroupsAgree

variable {members others : List Filter} (agree : GroupsAgree t members others)

include agree

theorem valueDefects (key : String) :
    Filter.valueDefects t key (.group members) = [] ↔
      Filter.valueDefects t key (.group others) = [] := by
  by_cases group : key = orKey
  · rw [Filter.valueDefects, if_pos group, Filter.valueDefects, if_pos group]
    exact agree.sound
  · -- under any other key only the form of a group counts
    simp only [valueDefects_of_ne group, plainDefects_eq_nil_iff, Table.Accepts,
      FilterValue.shape]

theorem valueTruth (atom : Condition → Truth) (key : String) :
    Filter.valueTruth (t.entryTruth atom) key (.group members) =
      Filter.valueTruth (t.entryTruth atom) key (.group others) := by
  by_cases group : key = orKey
  · have empty : members.isEmpty = others.isEmpty := by
      rw [Bool.eq_iff_iff, List.isEmpty_iff, List.isEmpty_iff]
      exact agree.empty
    rw [Filter.valueTruth, if_pos group, Filter.valueTruth, if_pos group, empty, agree.truth atom]
  · rw [valueTruth_of_ne group, valueTruth_of_ne group]
    unfold Table.entryTruth
    cases t.parseKey key <;> rfl

/-- Filters that differ in groups that agree do agree. -/
theorem replaced (before after : List (String × FilterValue)) (key : String) :
    Agreeing t (.entries (before ++ (key, .group members) :: after))
      (.entries (before ++ (key, .group others) :: after)) where
  sound := by
    simp only [defects, entryDefects_eq_nil_iff, List.forall_mem_append, List.forall_mem_cons,
      agree.valueDefects key]
  vacuous := by
    rw [Bool.eq_iff_iff, isVacuous_entries, isVacuous_entries]
    simp only [List.forall_mem_append, List.forall_mem_cons, Prod.mk.injEq, FilterValue.group.injEq,
      agree.empty]
  truth atom := by
    simp only [truth_entries, List.map_append, List.map_cons, agree.valueTruth atom key]

end GroupsAgree

theorem Agreeing.of_perm {list others : List (String × FilterValue)} (perm : list.Perm others) :
    Agreeing t (.entries list) (.entries others) where
  sound := by simp only [defects, entryDefects_eq_nil_iff, perm.mem_iff]
  vacuous := by
    rw [Bool.eq_iff_iff, isVacuous_entries, isVacuous_entries]
    simp only [perm.mem_iff]
  truth atom := by
    rw [truth_entries, truth_entries]
    exact Truth.all_eq_of_perm (perm.map _)

/-- Rearranging a filter changes neither what is wrong with it, if anything is, nor its meaning. -/
theorem Rearranged.agreeing {f g : Filter} (rearranged : f.Rearranged g) : Agreeing t f g := by
  induction rearranged with
  | entries perm => exact .of_perm perm
  | group before after key perm => exact (GroupsAgree.of_perm perm).replaced before after key
  | member before after key first last _ ih =>
      exact (GroupsAgree.of_member ih).replaced before after key
  | trans _ _ first second =>
      exact ⟨first.sound.trans second.sound, first.vacuous.trans second.vacuous,
        fun atom => (first.truth atom).trans (second.truth atom)⟩

/-! ## Defects -/

theorem wantsCondition_of_parseKey {key : String} {e : Error}
    (refused : t.parseKey key = .error e) : e.wantsCondition = false := by
  unfold Table.parseKey Table.splitKey at refused
  split at refused
  · cases refused
  · split at refused
    · simp only [bind, Except.bind] at refused
      split at refused
      · cases refused
      · cases refused
        rfl
    · cases refused
      rfl

theorem wantsCondition_of_mem_plainDefects {key : String} {given : FilterValue} {e : Error}
    (defect : e ∈ plainDefects t key given) : e.wantsCondition = false := by
  unfold plainDefects at defect
  split at defect
  · rename_i refused
    cases List.mem_singleton.mp defect
    exact wantsCondition_of_parseKey refused
  · split at defect
    · cases defect
    · cases List.mem_singleton.mp defect
      rfl

theorem exists_of_mem_entryDefects {list : List (String × FilterValue)} {e : Error}
    (defect : e ∈ entryDefects t list) :
    ∃ key given, (key, given) ∈ list ∧ e ∈ Filter.valueDefects t key given := by
  induction list with
  | nil => cases defect
  | cons head rest ih =>
      rcases List.mem_append.mp defect with first | later
      · exact ⟨head.1, head.2, List.mem_cons_self, first⟩
      · obtain ⟨key, given, found, here⟩ := ih later
        exact ⟨key, given, List.mem_cons_of_mem _ found, here⟩

theorem exists_of_mem_memberDefects {members : List Filter} {e : Error}
    (defect : e ∈ memberDefects t members) :
    e = vacuousMember ∨ ∃ member ∈ members, e ∈ member.defects t := by
  induction members with
  | nil => cases defect
  | cons head rest ih =>
      rcases List.mem_append.mp defect with early | later
      · rcases List.mem_append.mp early with first | vacuous
        · exact .inr ⟨head, List.mem_cons_self, first⟩
        · split at vacuous
          · exact .inl (List.mem_singleton.mp vacuous)
          · cases vacuous
      · refine (ih later).imp_right ?_
        rintro ⟨member, found, here⟩
        exact ⟨member, List.mem_cons_of_mem _ found, here⟩

/-- Nothing that is wrong with a filter is the want of a condition. -/
theorem wantsCondition_of_mem_defects {f : Filter} {e : Error} (defect : e ∈ f.defects t) :
    e.wantsCondition = false := by
  induction f using nested_induction with
  | entries list ih =>
      obtain ⟨key, given, found, here⟩ := exists_of_mem_entryDefects defect
      by_cases group : key = orKey
      · subst group
        cases given with
        | group members =>
            rw [Filter.valueDefects, if_pos rfl] at here
            rcases exists_of_mem_memberDefects here with rfl | ⟨member, inside, wrong⟩
            · rfl
            · exact ih orKey members found member inside wrong
        | scalar v | list vs =>
            rw [Filter.valueDefects, if_pos rfl] at here
            cases List.mem_singleton.mp here
            rfl
      · rw [valueDefects_of_ne group] at here
        exact wantsCondition_of_mem_plainDefects here

end Filter

/-! ## Refusals for want of a condition -/

/-- Outcomes that succeed together, and refuse together for want of a condition. -/
structure RefusedAlike {α β : Type} (first : Except Error α) (second : Except Error β) : Prop where
  ok : (∃ a, first = .ok a) ↔ ∃ b, second = .ok b
  want : ∀ table operation, first = .error (.missingCondition table operation) ↔
    second = .error (.missingCondition table operation)

namespace RefusedAlike

variable {α β γ δ : Type}

theorem of_ok (a : α) (b : β) : RefusedAlike (.ok a : Except Error α) (.ok b : Except Error β) :=
  ⟨iff_of_true ⟨a, rfl⟩ ⟨b, rfl⟩, fun _ _ => iff_of_false nofun nofun⟩

theorem of_error (e : Error) :
    RefusedAlike (.error e : Except Error α) (.error e : Except Error β) :=
  ⟨iff_of_false nofun nofun, fun _ _ => ⟨fun same => congrArg _ (Except.error.inj same),
    fun same => congrArg _ (Except.error.inj same)⟩⟩

/-- Chains are refused alike if their first checks are, and their rests after values. -/
theorem bind {first : Except Error α} {second : Except Error β} {next : α → Except Error γ}
    {other : β → Except Error δ} (alike : RefusedAlike first second)
    (rest : ∀ a b, first = .ok a → second = .ok b → RefusedAlike (next a) (other b)) :
    RefusedAlike (first >>= next) (second >>= other) := by
  cases first with
  | ok a =>
      obtain ⟨b, rfl⟩ := alike.ok.mp ⟨a, rfl⟩
      exact rest a b rfl rfl
  | error e =>
      cases second with
      | ok b =>
          obtain ⟨_, ended⟩ := alike.ok.mpr ⟨b, rfl⟩
          cases ended
      | error e' => exact ⟨iff_of_false nofun nofun, fun table operation => by
          have same := alike.want table operation
          simpa [Bind.bind, Except.bind] using same⟩

/-- Chains that begin with the same check are refused alike if their rests are. -/
theorem bind_same {r : Except Error α} {next : α → Except Error γ} {other : α → Except Error δ}
    (rest : ∀ a, r = .ok a → RefusedAlike (next a) (other a)) :
    RefusedAlike (r >>= next) (r >>= other) := by
  cases r with
  | ok a => exact rest a rfl
  | error e => exact .of_error e

end RefusedAlike

namespace Table

variable {t : Table} {f g : Filter}

theorem wantsCondition_of_compile {e : Error} (refused : t.compile f = .error e) :
    e.wantsCondition = false := by
  have first := (Filter.answers_compile f).eq_error_iff.mp refused
  exact Filter.wantsCondition_of_mem_defects (List.mem_of_head? first)

/-- The guard compiles a filter, also one without entries, and refuses what is trivial. -/
theorem requiredPredicate_eq (t : Table) (f : Filter) (operation : Operation) :
    t.requiredPredicate f operation = (do
      let p ← t.compile f
      if p.isTrivial then .error (.missingCondition t.name operation) else .ok p) := by
  cases compiled : t.compile f with
  | ok p => exact requiredPredicate_of_compile compiled operation
  | error e =>
      unfold requiredPredicate
      split
      · rename_i empty
        obtain ⟨list⟩ := f
        cases List.isEmpty_iff.mp empty
        cases compiled
      · rw [compiled]
        rfl

variable (rearranged : f.Rearranged g)

include rearranged

theorem compile_refusedAlike (t : Table) : RefusedAlike (t.compile f) (t.compile g) where
  ok := by
    rw [(Filter.answers_compile f).exists_eq_ok_iff, (Filter.answers_compile g).exists_eq_ok_iff]
    exact rearranged.agreeing.sound
  want table operation :=
    iff_of_false (fun refused => nomatch wantsCondition_of_compile refused)
      fun refused => nomatch wantsCondition_of_compile refused

theorem truth_eq_of_rearranged {p q : Predicate} (compiled : t.compile f = .ok p)
    (other : t.compile g = .ok q) (atom : Condition → Truth) : p.truth atom = q.truth atom :=
  calc p.truth atom
      = f.truth (t.entryTruth atom) := truth_compiled compiled atom
    _ = g.truth (t.entryTruth atom) := rearranged.agreeing.truth atom
    _ = q.truth atom := (truth_compiled other atom).symm

theorem requiredPredicate_refusedAlike (t : Table) (operation : Operation) :
    RefusedAlike (t.requiredPredicate f operation) (t.requiredPredicate g operation) := by
  rw [requiredPredicate_eq, requiredPredicate_eq]
  refine (compile_refusedAlike rearranged t).bind fun p q compiled other => ?_
  have trivial : p.isTrivial = q.isTrivial := by
    rw [Bool.eq_iff_iff, isTrivial_iff_alwaysHolds compiled, isTrivial_iff_alwaysHolds other]
    exact forall_congr' fun atom => by rw [rearranged.agreeing.truth atom]
  rw [trivial]
  split
  · exact .of_error _
  · exact .of_ok p q

end Table

/-- Rearranged filters are accepted together and then mean the same, whatever is true of the
conditions in them; deletions and updates with them are accepted together, and refused together for
want of a condition. -/
theorem rearranged_filters_agree {f g : Filter} (rearranged : f.Rearranged g) :
    (∀ t : Table, ((∃ p, t.compile f = .ok p) ↔ ∃ p, t.compile g = .ok p) ∧
      ∀ p q, t.compile f = .ok p → t.compile g = .ok q →
        ∀ atom : Condition → Truth, p.truth atom = q.truth atom) ∧
    ∀ (s : Snapshot) (table : String),
      RefusedAlike (Delete.compile s table f) (Delete.compile s table g) ∧
      ∀ set, RefusedAlike (Update.compile s table set f) (Update.compile s table set g) := by
  refine ⟨fun t => ⟨(Table.compile_refusedAlike rearranged t).ok, fun _ _ =>
    Table.truth_eq_of_rearranged rearranged⟩, fun s table => ⟨?_, fun set => ?_⟩⟩
  · refine .bind_same fun t _ => ?_
    exact (Table.requiredPredicate_refusedAlike rearranged t .delete).bind fun _ _ _ _ => .of_ok _ _
  · refine .bind_same fun t _ => ?_
    split
    · exact .of_error _
    · refine (Table.requiredPredicate_refusedAlike rearranged t .update).bind fun _ _ _ _ => ?_
      exact .bind_same fun _ _ => .of_ok _ _

/-! ## The nested filter, rearranged -/

/-- The inner member of the nested filter, with everything in it in the opposite order. -/
def turnedMember : Filter :=
  .entries
    [("id__notin", .list []),
      ("or__", .group [.entries [("price", .scalar .null)], .entries [("id", .scalar (.int 2))]])]

/-- The nested filter with everything in it in the opposite order. -/
def turnedFilter : Filter :=
  .entries
    [("or__", .group []), ("or__", .group [turnedMember, .entries [("id__in", .list [])]]),
      ("status__not", .scalar .null)]

def turnedPredicate : Predicate :=
  .all
    [.any
        [.condition ⟨"items", "price", .eq, .value .null⟩,
          .condition ⟨"items", "id", .eq, .value (.int 2)⟩],
      .condition ⟨"items", "status", .not, .value .null⟩]

theorem rearranged_turnedFilter : nestedFilter.Rearranged turnedFilter := by
  have alternatives := Filter.Rearranged.group [] [("id__notin", .list [])] "or__"
    (.swap (.entries [("price", .scalar .null)]) (.entries [("id", .scalar (.int 2))]) [])
  have inner : Filter.Rearranged _ turnedMember := alternatives.trans (.entries (.swap _ _ []))
  have within := Filter.Rearranged.member [("status__not", .scalar .null)] [("or__", .group [])]
    "or__" [.entries [("id__in", .list [])]] [] inner
  have members := Filter.Rearranged.group [("status__not", .scalar .null)] [("or__", .group [])]
    "or__" (.swap turnedMember (.entries [("id__in", .list [])]) [])
  exact (within.trans members).trans (.entries (List.reverse_perm _).symm)

theorem rearranged_filters_agree_nestedFilter :
    nestedFilter.Rearranged turnedFilter ∧
      items.compile nestedFilter = .ok nestedPredicate ∧
      items.compile turnedFilter = .ok turnedPredicate ∧
      (∀ atom : Condition → Truth, nestedPredicate.truth atom = turnedPredicate.truth atom) ∧
      ∀ set, RefusedAlike (Update.compile (Snapshot.ofList [items]) "items" set nestedFilter)
        (Update.compile (Snapshot.ofList [items]) "items" set turnedFilter) := by
  obtain ⟨filters, changes⟩ := rearranged_filters_agree rearranged_turnedFilter
  exact ⟨rearranged_turnedFilter, rfl, rfl, (filters items).2 _ _ rfl rfl, (changes _ _).2⟩

end TableAccess
