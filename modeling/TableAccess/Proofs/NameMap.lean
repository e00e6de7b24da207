import Mathlib.Data.List.Induction
import TableAccess.NameMap

/-!
# Looking up names

A map answers a name with the value of the one entry that has it, because its entries stand in
strictly increasing order. For the same reason maps with the same names list them in one order.
-/

namespace TableAccess.NameMap

variable {α : Type}

theorem find?_eq_some_of_mem {list : List (String × α)} {entry : String × α}
    (ordered : list.Pairwise fun first second => first.1 < second.1) (found : entry ∈ list) :
    find? entry.1 list = some entry.2 := by
  induction list with
  | nil => cases found
  | cons head rest ih =>
      obtain ⟨after, tail⟩ := List.pairwise_cons.mp ordered
      rcases List.mem_cons.mp found with rfl | later
      · exact if_pos rfl
      · -- an entry further on cannot have the name of the first one
        have different : head.1 ≠ entry.1 := fun same =>
          String.lt_irrefl entry.1 (same ▸ after entry later)
        rw [find?, if_neg different]
        exact ih tail later

/-- A map answers the name of an entry with its value. -/
theorem get?_eq_some_of_mem {m : NameMap α} {entry : String × α} (found : entry ∈ m.entries) :
    m.get? entry.1 = some entry.2 :=
  find?_eq_some_of_mem m.ordered found

/-- A map has a value for exactly the names of its entries. -/
theorem contains_iff_mem_keys {m : NameMap α} {name : String} :
    m.contains name = true ↔ name ∈ m.keys := by
  unfold contains get? keys
  induction m.entries with
  | nil => simp [find?]
  | cons head rest ih =>
      by_cases same : head.1 = name
      · simp [find?, same]
      · have other : name ≠ head.1 := fun equal => same equal.symm
        simp [find?, same, other, ih]

theorem pairwise_keys (m : NameMap α) : m.keys.Pairwise (· < ·) :=
  List.pairwise_map.mpr m.ordered

theorem nodup_keys (m : NameMap α) : m.keys.Nodup := by
  apply m.pairwise_keys.imp
  rintro first second before rfl
  exact String.lt_irrefl first before

/-- Maps with the same names have them in the same order. -/
theorem keys_eq_iff {β : Type} {m : NameMap α} {n : NameMap β} :
    m.keys = n.keys ↔ ∀ name, m.contains name = n.contains name := by
  constructor
  · intro same name
    rw [Bool.eq_iff_iff, contains_iff_mem_keys, contains_iff_mem_keys, same]
  · intro same
    have perm : m.keys.Perm n.keys := by
      rw [List.perm_ext_iff_of_nodup m.nodup_keys n.nodup_keys]
      intro name
      rw [← contains_iff_mem_keys, ← contains_iff_mem_keys, same]
    apply perm.eq_of_pairwise _ m.pairwise_keys n.pairwise_keys
    intro first second _ _ before after
    exact absurd after (String.lt_asymm before)

/-- The names and the values of a map are those of its entries, pair by pair. -/
theorem zip_keys_values (m : NameMap α) : m.keys.zip m.values = m.entries := by
  rw [keys, values, List.zip_map']
  exact List.map_id m.entries

theorem mem_of_find? {list : List (String × α)} {name : String} {value : α}
    (found : find? name list = some value) : (name, value) ∈ list := by
  induction list with
  | nil => cases found
  | cons head rest ih =>
      obtain ⟨key, old⟩ := head
      unfold find? at found
      split at found
      · rename_i same
        cases found
        exact same ▸ List.mem_cons_self
      · exact List.mem_cons_of_mem _ (ih found)

/-- The entries of a map are among those that it was made of. -/
theorem mem_of_ofList {list : List (String × α)} {entry : String × α}
    (member : entry ∈ (ofList list).entries) : entry ∈ list := by
  have each (m : NameMap α)
      (held : entry ∈ (list.foldl (fun m entry => m.insert entry.1 entry.2) m).entries) :
      entry ∈ m.entries ∨ entry ∈ list := by
    clear member
    induction list generalizing m with
    | nil => exact .inl held
    | cons head rest ih =>
        rcases ih (m.insert head.1 head.2) held with early | late
        · rcases mem_insertEntry early with rfl | old
          · exact .inr List.mem_cons_self
          · exact .inl old
        · exact .inr (List.mem_cons_of_mem _ late)
  exact (each empty member).resolve_left List.not_mem_nil

theorem find?_insertEntry (name key : String) (value : α) (list : List (String × α)) :
    find? key (insertEntry name value list) = if name = key then some value else find? key list := by
  induction list with
  | nil => rfl
  | cons head rest ih =>
      obtain ⟨first, old⟩ := head
      unfold insertEntry
      split
      · rfl
      · split
        · rename_i same
          subst same
          simp only [find?]
          split <;> rfl
        · rename_i different
          simp only [find?, ih]
          split
          · rename_i same
            rw [if_neg fun equal => different (equal.trans same.symm)]
          · rfl

/-- After an insertion the map answers the new name with the new value, and others as before. -/
theorem get?_insert (m : NameMap α) (name key : String) (value : α) :
    (m.insert name value).get? key = if name = key then some value else m.get? key :=
  find?_insertEntry name key value m.entries

/-- The map of a list that is one entry longer is the map of the list with that entry put in. -/
theorem ofList_concat (list : List (String × α)) (entry : String × α) :
    ofList (list ++ [entry]) = (ofList list).insert entry.1 entry.2 := by
  unfold ofList
  rw [List.foldl_append]
  rfl

/-- Whatever entries come first, the map answers with the last one of the name. -/
theorem get?_ofList_of_last {before after : List (String × α)} {name : String} {value : α}
    (last : ∀ entry ∈ after, entry.1 ≠ name) :
    (ofList (before ++ (name, value) :: after)).get? name = some value := by
  induction after using List.reverseRecOn with
  | nil => rw [ofList_concat, get?_insert, if_pos rfl]
  | append_singleton after entry ih =>
      have other : entry.1 ≠ name := last entry (List.mem_append_right _ List.mem_cons_self)
      have earlier := ih fun entry member => last entry (List.mem_append_left _ member)
      rw [← List.cons_append, ← List.append_assoc, ofList_concat, get?_insert, if_neg other]
      exact earlier

end TableAccess.NameMap
