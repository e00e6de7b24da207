import TableAccess.Mutation.Update
import TableAccess.Proofs.Filter.Meaning
import TableAccess.Proofs.Predicate.NormalForm

/-!
# The guard of updates and deletions

An update or a deletion is refused for want of a condition exactly if its filter holds
whatever is true of the stored rows. The guard looks at the root of the compiled
predicate only; that this is enough is the normal form of predicates.
-/

namespace TableAccess

/-- Whether a filter holds under every assignment of truth values to the conditions in it. -/
def Filter.AlwaysHolds (f : Filter) (t : Table) : Prop :=
  ∀ atom : Condition → Truth, f.truth (t.entryTruth atom) = .yes

namespace Table

/-- Whether a key may be set: it is a column, or the increment of a numeric column. -/
inductive Assignable (t : Table) (key : String) : Prop where
  | column {field : String} (split : t.splitKey key = .ok (field, none)) : Assignable t key
  | increment {field : String} {c : Column}
      (split : t.splitKey key = .ok (field, some incrementSuffix))
      (found : t.column? field = some c) (numeric : c.type.isNumeric = true) : Assignable t key

/-- The guard passes a compiled predicate on unless it is true by its form alone. -/
theorem requiredPredicate_of_compile {t : Table} {f : Filter} {p : Predicate}
    (compiled : t.compile f = .ok p) (operation : Operation) :
    t.requiredPredicate f operation =
      if p.isTrivial then .error (.missingCondition t.name operation) else .ok p := by
  unfold requiredPredicate
  cases empty : f.isEmpty with
  | true =>
      have unrestricted : p = .unrestricted := by
        obtain ⟨list⟩ := f
        have none : list = [] := List.isEmpty_iff.mp empty
        subst none
        cases compiled
        rfl
      subst unrestricted
      rfl
  | false =>
      rw [compiled]
      cases trivial : p.isTrivial <;> simp [bind, Except.bind, trivial] <;> rfl

/-- The guard refuses exactly the filters that always hold. -/
theorem isTrivial_iff_alwaysHolds {t : Table} {f : Filter} {p : Predicate}
    (compiled : t.compile f = .ok p) : p.isTrivial = true ↔ f.AlwaysHolds t := by
  have normal : p.Normal fun _ => True :=
    Predicate.normal_of_compile (fun _ _ _ _ => trivial) compiled
  rw [normal.isTrivial_iff]
  refine forall_congr' fun atom => ?_
  rw [truth_compiled compiled]

end Table

namespace Assignment

variable {α : Type}

theorem ofKey_of_assignable {t : Table} {key : String} (assignable : t.Assignable key)
    (operand : α) : ∃ a, ofKey t key operand = .ok a := by
  cases assignable with
  | @column field split => exact ⟨⟨field, false, operand⟩, by rw [ofKey, split]; rfl⟩
  | @increment field c split found numeric =>
      refine ⟨⟨field, true, operand⟩, ?_⟩
      rw [ofKey, split]
      simp [bind, Except.bind, Table.requireColumn, found, numeric]
      rfl

theorem ofKeys_of_assignable {t : Table} {list : List (String × α)}
    (assignable : ∀ entry ∈ list, t.Assignable entry.1) : ∃ as, ofKeys t list = .ok as := by
  induction list with
  | nil => exact ⟨[], rfl⟩
  | cons head rest ih =>
      obtain ⟨a, first⟩ := ofKey_of_assignable (assignable head List.mem_cons_self) head.2
      obtain ⟨as, later⟩ := ih fun entry member => assignable entry (List.mem_cons_of_mem _ member)
      exact ⟨a :: as, by rw [ofKeys, first, later]; rfl⟩

end Assignment

section

variable {s : Snapshot} {name : String} {t : Table} {f : Filter}

/-- An update of valid columns is what the guard lets pass, with the assignments. -/
theorem Update.compile_eq_map {set : RowValues} {as : List (Assignment Value)}
    (found : s.resolve name = .ok t) (filled : set.isEmpty = false)
    (assigned : Assignment.ofKeys t set.entries = .ok as) :
    Update.compile s name set f =
      (t.requiredPredicate f .update).map fun condition => ⟨t.name, as, condition⟩ := by
  rw [Update.compile, found]
  simp only [bind, Except.bind, filled]
  cases t.requiredPredicate f .update with
  | error e => rfl
  | ok condition => rw [assigned]; rfl

/-- A deletion is what the guard lets pass. -/
theorem Delete.compile_eq_map (found : s.resolve name = .ok t) :
    Delete.compile s name f =
      (t.requiredPredicate f .delete).map fun condition => ⟨t.name, condition⟩ := by
  rw [Delete.compile, found]
  simp only [bind, Except.bind]
  cases t.requiredPredicate f .delete with
  | error e => rfl
  | ok condition => rfl

/-- An update of valid columns and a deletion are refused for want of a condition exactly
if the filter always holds. Otherwise both are accepted, with the predicate of the filter,
which is false of rows that satisfy none of its conditions. -/
theorem missingCondition_iff_alwaysHolds {set : RowValues} {p : Predicate}
    (found : s.resolve name = .ok t) (filled : set.isEmpty = false)
    (assignable : ∀ entry ∈ set.entries, t.Assignable entry.1) (accepted : t.compile f = .ok p) :
    (Update.compile s name set f = .error (.missingCondition t.name .update) ↔ f.AlwaysHolds t) ∧
      (Delete.compile s name f = .error (.missingCondition t.name .delete) ↔ f.AlwaysHolds t) ∧
      (¬ f.AlwaysHolds t →
        (∃ u, Update.compile s name set f = .ok u ∧ u.condition = p) ∧
          (∃ d, Delete.compile s name f = .ok d ∧ d.condition = p) ∧
          p.truth (fun _ => .no) = .no) := by
  obtain ⟨as, assigned⟩ := Assignment.ofKeys_of_assignable assignable
  have normal : p.Normal fun _ => True :=
    Predicate.normal_of_compile (fun _ _ _ _ => trivial) accepted
  rw [Update.compile_eq_map found filled assigned, Delete.compile_eq_map found,
    Table.requiredPredicate_of_compile accepted, Table.requiredPredicate_of_compile accepted,
    ← Table.isTrivial_iff_alwaysHolds accepted]
  cases restricting : p.isTrivial with
  | true => simp [Except.map]
  | false =>
      refine ⟨by simp [Except.map], by simp [Except.map], fun _ => ⟨?_, ?_, ?_⟩⟩
      · exact ⟨⟨t.name, as, p⟩, rfl, rfl⟩
      · exact ⟨⟨t.name, p⟩, rfl, rfl⟩
      · exact normal.truth_eq_no restricting

end

/-! ## A change of some items -/

/-- Sets the status of items and raises their prices. -/
def markUp : RowValues := .ofList [("status", .text "new"), ("price__inc", .int 1)]

theorem assignable_markUp : ∀ entry ∈ markUp.entries, items.Assignable entry.1 := by
  have entries : markUp.entries = [("price__inc", .int 1), ("status", .text "new")] := by rfl
  rw [entries]
  intro entry member
  rcases List.mem_cons.mp member with rfl | member
  · have split : items.splitKey "price__inc" = .ok ("price", some incrementSuffix) := by rfl
    exact .increment split rfl rfl
  · rw [List.mem_singleton.mp member]
    have split : items.splitKey "status" = .ok ("status", none) := by rfl
    exact .column split

theorem missingCondition_iff_alwaysHolds_nestedFilter :
    (Snapshot.ofList [items]).resolve "items" = .ok items ∧ markUp.isEmpty = false ∧
      (∀ entry ∈ markUp.entries, items.Assignable entry.1) ∧
      items.compile nestedFilter = .ok nestedPredicate ∧ ¬ nestedFilter.AlwaysHolds items ∧
      (∃ u, Update.compile (Snapshot.ofList [items]) "items" markUp nestedFilter = .ok u ∧
        u.condition = nestedPredicate) ∧
      ∃ d, Delete.compile (Snapshot.ofList [items]) "items" nestedFilter = .ok d ∧
        d.condition = nestedPredicate := by
  have sometimes : ¬ nestedFilter.AlwaysHolds items := by
    intro always
    cases (always fun _ => .no : Truth.no = .yes)
  have guarded := missingCondition_iff_alwaysHolds
    (rfl : (Snapshot.ofList [items]).resolve "items" = .ok items) rfl assignable_markUp
    (rfl : items.compile nestedFilter = .ok nestedPredicate)
  obtain ⟨updated, deleted, _⟩ := guarded.2.2 sometimes
  exact ⟨rfl, rfl, assignable_markUp, rfl, sometimes, updated, deleted⟩

end TableAccess
