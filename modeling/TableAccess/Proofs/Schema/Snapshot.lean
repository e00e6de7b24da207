import TableAccess.Proofs.NameMap
import TableAccess.Schema.Snapshot

/-!
# The tables of a snapshot

A snapshot answers a name with the last table of that name in the list it was made of, and refuses
any other name. The names that it lists are those that it answers, each of them once.
-/

namespace TableAccess.Snapshot

variable {s : Snapshot} {tables : List Table} {name : String} {t : Table}

/-! ## Answers -/

theorem resolve_eq_ok_iff : s.resolve name = .ok t ↔ s.tables.get? name = some t := by
  unfold resolve
  cases s.tables.get? name with
  | none => simp
  | some found => simp

theorem resolve_eq_error_iff {e : Error} :
    s.resolve name = .error e ↔ e = .unknownTable name ∧ s.contains name = false := by
  unfold resolve contains NameMap.contains
  cases s.tables.get? name with
  | none => simp [eq_comm]
  | some found => simp

theorem contains_iff : s.contains name = true ↔ ∃ t, s.resolve name = .ok t := by
  simp only [resolve_eq_ok_iff, contains, NameMap.contains, Option.isSome_iff_exists]

theorem mem_names_iff : name ∈ s.names ↔ ∃ t, s.resolve name = .ok t :=
  NameMap.contains_iff_mem_keys.symm.trans contains_iff

theorem size_eq_length_names (s : Snapshot) : s.size = s.names.length :=
  (List.length_map _).symm

/-! ## Snapshots of lists -/

theorem of_resolve (found : (ofList tables).resolve name = .ok t) :
    t ∈ tables ∧ t.name = name := by
  have held := NameMap.mem_of_ofList (NameMap.mem_of_find? (resolve_eq_ok_iff.mp found))
  obtain ⟨t, member, same⟩ := List.mem_map.mp held
  cases same
  exact ⟨member, rfl⟩

/-- The table is in the list, and no table after it has its name. -/
def IsLast (tables : List Table) (t : Table) : Prop :=
  ∃ before after, tables = before ++ t :: after ∧ ∀ other ∈ after, other.name ≠ t.name

/-- A list that has a table of some name has a last one of that name. -/
theorem exists_isLast (member : t ∈ tables) :
    ∃ last, last.name = t.name ∧ IsLast tables last := by
  induction tables using List.reverseRecOn with
  | nil => cases member
  | append_singleton front final ih =>
      by_cases same : final.name = t.name
      · exact ⟨final, same, front, [], rfl, fun _ found => nomatch found⟩
      · have earlier : t ∈ front := by
          rcases List.mem_append.mp member with here | there
          · exact here
          · exact absurd (congrArg Table.name (List.mem_singleton.mp there).symm) same
        obtain ⟨last, named, before, after, split, others⟩ := ih earlier
        refine ⟨last, named, before, after ++ [final], by simp [split], fun other found => ?_⟩
        rcases List.mem_append.mp found with within | atEnd
        · exact others other within
        · rw [List.mem_singleton.mp atEnd, named]
          exact same

theorem resolve_of_isLast (last : IsLast tables t) : (ofList tables).resolve t.name = .ok t := by
  obtain ⟨before, after, rfl, others⟩ := last
  rw [resolve_eq_ok_iff, ofList, List.map_append, List.map_cons]
  refine NameMap.get?_ofList_of_last fun entry member => ?_
  obtain ⟨other, later, rfl⟩ := List.mem_map.mp member
  exact others other later

theorem resolve_ofList_iff :
    (ofList tables).resolve name = .ok t ↔ t.name = name ∧ IsLast tables t := by
  constructor
  · intro found
    obtain ⟨member, rfl⟩ := of_resolve found
    obtain ⟨last, named, isLast⟩ := exists_isLast member
    have answered := resolve_of_isLast isLast
    rw [named, found] at answered
    cases answered
    exact ⟨rfl, isLast⟩
  · rintro ⟨rfl, isLast⟩
    exact resolve_of_isLast isLast

theorem contains_ofList_iff :
    (ofList tables).contains name = true ↔ ∃ t ∈ tables, t.name = name := by
  rw [contains_iff]
  constructor
  · rintro ⟨t, found⟩
    exact ⟨t, of_resolve found⟩
  · rintro ⟨t, member, rfl⟩
    obtain ⟨last, named, isLast⟩ := exists_isLast member
    exact ⟨last, named ▸ resolve_of_isLast isLast⟩

/-- The snapshot shows the tables of a list: the last one of each name, and nothing else. -/
structure Shows (s : Snapshot) (tables : List Table) : Prop where
  answers : ∀ name t, s.resolve name = .ok t ↔ t.name = name ∧ IsLast tables t
  refuses : ∀ name e, s.resolve name = .error e ↔ e = .unknownTable name ∧ s.contains name = false
  contains : ∀ name, s.contains name = true ↔ ∃ t ∈ tables, t.name = name
  lists : ∀ name, name ∈ s.names ↔ ∃ t, s.resolve name = .ok t
  increasing : s.names.Pairwise (· < ·)
  counts : s.size = s.names.length

theorem shows_ofList (tables : List Table) : (ofList tables).Shows tables where
  answers := fun _ _ => resolve_ofList_iff
  refuses := fun _ _ => resolve_eq_error_iff
  contains := fun _ => contains_ofList_iff
  lists := fun _ => mem_names_iff
  increasing := NameMap.pairwise_keys _
  counts := size_eq_length_names _

end TableAccess.Snapshot
