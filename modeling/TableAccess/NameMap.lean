/-!
# Maps keyed by names

A finite map from names to values, held as a list in strictly increasing order
of its names. Names are compared by code points, which is also the order of
their UTF-8 bytes. Because the order is strict, a name occurs at most once, and
a map is determined by what it answers.
-/

namespace TableAccess

/-- A finite map whose entries stand in strictly increasing order of their names. -/
structure NameMap (α : Type) where
  entries : List (String × α)
  ordered : entries.Pairwise fun first second => first.1 < second.1

namespace NameMap

variable {α : Type}

instance [DecidableEq α] : DecidableEq (NameMap α) := fun first second =>
  decidable_of_iff (first.entries = second.entries) <| by
    cases first; cases second; simp

@[ext]
theorem ext {first second : NameMap α} (same : first.entries = second.entries) :
    first = second := by
  cases first; cases second; simp_all

def empty : NameMap α := ⟨[], .nil⟩

instance : Inhabited (NameMap α) := ⟨empty⟩

def keys (m : NameMap α) : List String := m.entries.map (·.1)

def values (m : NameMap α) : List α := m.entries.map (·.2)

def size (m : NameMap α) : Nat := m.entries.length

def isEmpty (m : NameMap α) : Bool := m.entries.isEmpty

def find? (name : String) : List (String × α) → Option α
  | [] => none
  | (key, value) :: rest => if key = name then some value else find? name rest

def get? (m : NameMap α) (name : String) : Option α := find? name m.entries

def contains (m : NameMap α) (name : String) : Bool := (m.get? name).isSome

/-- Puts an entry at its place in an ordered list; it replaces one of the same name. -/
def insertEntry (name : String) (value : α) : List (String × α) → List (String × α)
  | [] => [(name, value)]
  | (key, old) :: rest =>
      if name < key then (name, value) :: (key, old) :: rest
      else if name = key then (name, value) :: rest
      else (key, old) :: insertEntry name value rest

/-- Two names that are neither equal nor in order are in the other order. -/
theorem lt_of_not_lt {first second : String} (notLt : ¬ first < second)
    (different : first ≠ second) : second < first :=
  Decidable.byContradiction fun notGt =>
    different (String.le_antisymm (String.not_lt.mp notGt) (String.not_lt.mp notLt))

/-- An entry of the list after an insertion is the new one or an old one. -/
theorem mem_insertEntry {name : String} {value : α} {list : List (String × α)}
    {entry : String × α} (member : entry ∈ insertEntry name value list) :
    entry = (name, value) ∨ entry ∈ list := by
  induction list with
  | nil => simpa [insertEntry] using member
  | cons head rest ih =>
      obtain ⟨key, old⟩ := head
      unfold insertEntry at member
      split at member
      · simpa using member
      · split at member
        · rcases List.mem_cons.mp member with rfl | found
          · exact .inl rfl
          · exact .inr (List.mem_cons_of_mem _ found)
        · rcases List.mem_cons.mp member with rfl | found
          · exact .inr List.mem_cons_self
          · exact (ih found).imp id (List.mem_cons_of_mem _)

/-- Insertion keeps the order. -/
theorem pairwise_insertEntry {name : String} {value : α} {list : List (String × α)}
    (ordered : list.Pairwise fun first second => first.1 < second.1) :
    (insertEntry name value list).Pairwise fun first second => first.1 < second.1 := by
  induction list with
  | nil => simp [insertEntry]
  | cons head rest ih =>
      obtain ⟨key, old⟩ := head
      have after := (List.pairwise_cons.mp ordered).1
      have tail := (List.pairwise_cons.mp ordered).2
      unfold insertEntry
      split
      · rename_i before
        refine List.pairwise_cons.mpr ⟨fun entry member => ?_, ordered⟩
        rcases List.mem_cons.mp member with rfl | found
        · exact before
        · exact String.lt_trans before (after entry found)
      · split
        · rename_i same
          subst same
          exact List.pairwise_cons.mpr ⟨after, tail⟩
        · rename_i notLt different
          refine List.pairwise_cons.mpr ⟨fun entry member => ?_, ih tail⟩
          rcases mem_insertEntry member with rfl | found
          · exact lt_of_not_lt notLt different
          · exact after entry found

def insert (m : NameMap α) (name : String) (value : α) : NameMap α :=
  ⟨insertEntry name value m.entries, pairwise_insertEntry m.ordered⟩

/-- The map of a list of entries; a later value for a name replaces an earlier one. -/
def ofList (list : List (String × α)) : NameMap α :=
  list.foldl (fun m entry => m.insert entry.1 entry.2) empty

def map {β : Type} (f : α → β) (m : NameMap α) : NameMap β where
  entries := m.entries.map fun entry => (entry.1, f entry.2)
  ordered := List.pairwise_map.mpr m.ordered

end NameMap

end TableAccess
