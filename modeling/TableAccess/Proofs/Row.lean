import Mathlib.Data.List.Basic
import Mathlib.Data.Nat.Find
import TableAccess.Proofs.NameMap
import TableAccess.Proofs.Text.Bytes
import TableAccess.Row

/-!
# Reading rows

A join may give a row several columns of one name. By name the first of them is read, while a map
of the row and the object written for it keep the last, each name once and in the order of the
bytes of the names. In a row whose columns have different names the two are one column, so all
ways to read it agree.
-/

namespace TableAccess.Row

variable {r : Row} {name : String} {v : Value} {i j : Nat}

/-! ## Positions of names -/

structure IsFirst (r : Row) (name : String) (i : Nat) : Prop where
  named : r.columns[i]? = some name
  least : ∀ j, j < i → r.columns[j]? ≠ some name

structure IsLast (r : Row) (name : String) (i : Nat) : Prop where
  named : r.columns[i]? = some name
  greatest : ∀ j, i < j → r.columns[j]? ≠ some name

theorem IsFirst.eq (first : r.IsFirst name i) (other : r.IsFirst name j) : i = j := by
  rcases Nat.lt_trichotomy i j with before | same | after
  · exact absurd first.named (other.least i before)
  · exact same
  · exact absurd other.named (first.least j after)

theorem isFirst_idxOf (member : name ∈ r.columns) : r.IsFirst name (r.columns.idxOf name) where
  named := List.getElem?_idxOf member
  least := fun j before found => by
    obtain ⟨within, here⟩ := List.getElem?_eq_some_iff.mp found
    have other : (r.columns[j] == name) = false := List.not_of_lt_findIdx before
    exact beq_eq_false_iff_ne.mp other here

theorem exists_isLast (member : name ∈ r.columns) : ∃ i, r.IsLast name i := by
  obtain ⟨j, within, here⟩ := List.getElem_of_mem member
  refine ⟨Nat.findGreatest (fun i => r.columns[i]? = some name) r.columns.length, ?_, ?_⟩
  · exact Nat.findGreatest_spec (P := fun i => r.columns[i]? = some name) within.le
      (List.getElem?_eq_some_iff.mpr ⟨within, here⟩)
  · intro k after found
    obtain ⟨below, _⟩ := List.getElem?_eq_some_iff.mp found
    exact Nat.findGreatest_is_greatest after below.le found

/-- Where names are different, each has one position. -/
theorem position_unique (distinct : r.columns.Nodup) (here : r.columns[i]? = some name)
    (there : r.columns[j]? = some name) : i = j := by
  obtain ⟨within, _⟩ := List.getElem?_eq_some_iff.mp here
  exact (List.getElem?_inj within distinct).mp (here.trans there.symm)

theorem isFirst_iff_of_nodup (distinct : r.columns.Nodup) :
    r.IsFirst name i ↔ r.columns[i]? = some name :=
  ⟨IsFirst.named, fun named => ⟨named, fun _ before found =>
    before.ne (position_unique distinct found named)⟩⟩

theorem isLast_iff_of_nodup (distinct : r.columns.Nodup) :
    r.IsLast name i ↔ r.columns[i]? = some name :=
  ⟨IsLast.named, fun named => ⟨named, fun _ after found =>
    after.ne (position_unique distinct named found)⟩⟩

/-! ## One column -/

theorem getElem?_pairs :
    r.pairs[i]? = some (name, v) ↔ r.columns[i]? = some name ∧ r.at? i = some v :=
  List.getElem?_zip_eq_some

/-- A row with a value for each column has one wherever it has a name. -/
theorem exists_at? (full : r.columns.length = r.values.length) (named : r.columns[i]? = some name) :
    ∃ v, r.at? i = some v := by
  obtain ⟨within, _⟩ := List.getElem?_eq_some_iff.mp named
  exact ⟨_, List.getElem?_eq_getElem (full ▸ within)⟩

theorem get?_eq_none_iff (full : r.columns.length = r.values.length) :
    r.get? name = none ↔ name ∉ r.columns := by
  unfold get?
  split
  · rename_i member
    obtain ⟨v, found⟩ := exists_at? full (isFirst_idxOf member).named
    rw [at?] at found
    simp [found, member]
  · rename_i absent
    simp [absent]

theorem get?_eq_some_iff : r.get? name = some v ↔ ∃ i, r.IsFirst name i ∧ r.at? i = some v := by
  constructor
  · intro found
    unfold get? at found
    split at found
    · rename_i member
      exact ⟨_, isFirst_idxOf member, found⟩
    · cases found
  · rintro ⟨i, first, found⟩
    have member : name ∈ r.columns := List.mem_of_getElem? first.named
    rw [first.eq (isFirst_idxOf member)] at found
    rw [get?, if_pos member]
    exact found

/-- A reading by name that agrees with the value of the first column, and that fails, telling why,
exactly where there is none of the name. -/
structure Insists {ε : Type} (r : Row) (read : String → Except ε Value) (told : String → ε) :
    Prop where
  ok : ∀ name v, read name = .ok v ↔ r.get? name = some v
  error : ∀ name e, read name = .error e ↔ e = told name ∧ name ∉ r.columns

theorem insists {ε : Type} {read : String → Except ε Value} {told : String → ε}
    (full : r.columns.length = r.values.length)
    (reads : ∀ name, read name = (r.get? name).elim (.error (told name)) .ok) :
    r.Insists read told where
  ok := fun name v => by
    rw [reads]
    cases r.get? name <;> simp
  error := fun name e => by
    rw [reads, ← get?_eq_none_iff full]
    cases r.get? name <;> simp [eq_comm]

/-! ## The whole row -/

/-- Entries for the columns of a row: each name once, in the order of the bytes of the names, with
what a function makes of the value at the last position of the name. -/
structure KeepsLast {α : Type} (r : Row) (f : Value → α) (entries : List (String × α)) : Prop where
  names : ∀ name, name ∈ entries.map Prod.fst ↔ name ∈ r.columns
  increasing : (entries.map Prod.fst).Pairwise fun first second =>
    Text.bytes first < Text.bytes second
  values : ∀ name a, (name, a) ∈ entries ↔ ∃ i v, r.IsLast name i ∧ r.at? i = some v ∧ f v = a

theorem toMap_get?_of_isLast (last : r.IsLast name i) (found : r.at? i = some v) :
    r.toMap.get? name = some v := by
  obtain ⟨within, here⟩ := List.getElem?_eq_some_iff.mp (getElem?_pairs.mpr ⟨last.named, found⟩)
  have split : r.pairs = r.pairs.take i ++ (name, v) :: r.pairs.drop (i + 1) := by
    rw [← here, List.getElem_cons_drop, List.take_append_drop]
  rw [toMap, split]
  refine NameMap.get?_ofList_of_last fun entry later same => ?_
  obtain ⟨k, further⟩ := List.mem_iff_getElem?.mp later
  rw [List.getElem?_drop, ← Prod.mk.eta (p := entry), getElem?_pairs, same] at further
  exact last.greatest _ (by omega) further.1

theorem mem_entries_toMap (full : r.columns.length = r.values.length) :
    (name, v) ∈ r.toMap.entries ↔ ∃ i, r.IsLast name i ∧ r.at? i = some v := by
  constructor
  · intro member
    obtain ⟨j, found⟩ := List.mem_iff_getElem?.mp (NameMap.mem_of_ofList member)
    obtain ⟨i, last⟩ := exists_isLast (List.mem_of_getElem? (getElem?_pairs.mp found).1)
    obtain ⟨kept, here⟩ := exists_at? full last.named
    -- the map has one value for the name
    have same := (NameMap.get?_eq_some_of_mem member).symm.trans (toMap_get?_of_isLast last here)
    exact ⟨i, last, here.trans same.symm⟩
  · rintro ⟨i, last, found⟩
    exact NameMap.mem_of_find? (toMap_get?_of_isLast last found)

theorem KeepsLast.map {α : Type} {f : Value → α} {entries : List (String × Value)}
    (keeps : r.KeepsLast id entries) :
    r.KeepsLast f (entries.map fun entry => (entry.1, f entry.2)) where
  names := fun name => by
    rw [List.map_map]
    exact keeps.names name
  increasing := by
    rw [List.map_map]
    exact keeps.increasing
  values := fun name a => by
    constructor
    · intro member
      obtain ⟨⟨key, v⟩, held, same⟩ := List.mem_map.mp member
      cases same
      obtain ⟨i, _, last, found, rfl⟩ := (keeps.values key v).mp held
      exact ⟨i, _, last, found, rfl⟩
    · rintro ⟨i, v, last, found, rfl⟩
      exact List.mem_map.mpr ⟨(name, v), (keeps.values name v).mpr ⟨i, v, last, found, rfl⟩, rfl⟩

theorem keepsLast_toMap (full : r.columns.length = r.values.length) :
    r.KeepsLast id r.toMap.entries where
  names := fun name => by
    constructor
    · intro member
      obtain ⟨entry, held, rfl⟩ := List.mem_map.mp member
      obtain ⟨i, last, _⟩ := (mem_entries_toMap full).mp held
      exact List.mem_of_getElem? last.named
    · intro member
      obtain ⟨i, last⟩ := exists_isLast member
      obtain ⟨v, found⟩ := exists_at? full last.named
      exact List.mem_map.mpr ⟨(name, v), (mem_entries_toMap full).mpr ⟨i, last, found⟩, rfl⟩
  increasing := r.toMap.pairwise_keys.imp Text.bytes_lt_of_lt
  values := fun name v => by
    rw [mem_entries_toMap full]
    simp

theorem keepsLast_toJson (full : r.columns.length = r.values.length) :
    ∃ members, r.toJson = .object members ∧ r.KeepsLast Value.toJson members :=
  ⟨_, rfl, (keepsLast_toMap full).map⟩

/-- How the ways to read a row answer: pair by pair, the first value of a name, and the last. -/
structure Reads (r : Row) : Prop where
  length_pairs : r.pairs.length = r.columns.length
  pairs : ∀ i name v, r.pairs[i]? = some (name, v) ↔ r.columns[i]? = some name ∧ r.at? i = some v
  get? : ∀ name v, r.get? name = some v ↔ ∃ i, r.IsFirst name i ∧ r.at? i = some v
  absent : ∀ name, r.get? name = none ↔ name ∉ r.columns
  get : r.Insists r.get .columnNotFound
  fetch : r.Insists r.fetch fun name => s!"no column named '{name}' in row"
  toMap : r.KeepsLast id r.toMap.entries
  toJson : ∃ members, r.toJson = .object members ∧ r.KeepsLast Value.toJson members

theorem reads (full : r.columns.length = r.values.length) : r.Reads where
  length_pairs := by rw [Row.pairs, List.length_zip, ← full, Nat.min_self]
  pairs := fun _ _ _ => getElem?_pairs
  get? := fun _ _ => get?_eq_some_iff
  absent := fun _ => get?_eq_none_iff full
  get := insists full fun name => by
    unfold Row.get
    cases r.get? name <;> rfl
  fetch := insists full fun name => by
    unfold Row.fetch
    cases r.get? name <;> rfl
  toMap := keepsLast_toMap full
  toJson := keepsLast_toJson full

/-- All ways to read a row give the same value for a name, and the map is as long as the row. -/
structure Agrees (r : Row) : Prop where
  pairs : ∀ name v, (name, v) ∈ r.pairs ↔ r.get? name = some v
  toMap : ∀ name, r.toMap.get? name = r.get? name
  toJson : ∀ members, r.toJson = .object members →
    ∀ name json, (name, json) ∈ members ↔ ∃ v, r.get? name = some v ∧ v.toJson = json
  size : r.toMap.size = r.size

theorem toMap_get?_of_nodup (full : r.columns.length = r.values.length)
    (distinct : r.columns.Nodup) (name : String) : r.toMap.get? name = r.get? name := by
  by_cases member : name ∈ r.columns
  · have first := isFirst_idxOf member
    obtain ⟨v, found⟩ := exists_at? full first.named
    have last : r.IsLast name _ := (isLast_iff_of_nodup distinct).mpr first.named
    rw [toMap_get?_of_isLast last found, get?_eq_some_iff.mpr ⟨_, first, found⟩]
  · rw [(get?_eq_none_iff full).mpr member, ← Option.not_isSome_iff_eq_none]
    intro held
    have key := NameMap.contains_iff_mem_keys.mp held
    exact member (((keepsLast_toMap full).names name).mp key)

theorem size_toMap_of_nodup (full : r.columns.length = r.values.length)
    (distinct : r.columns.Nodup) : r.toMap.size = r.size := by
  have same : r.toMap.keys.Perm r.columns :=
    (List.perm_ext_iff_of_nodup r.toMap.nodup_keys distinct).mpr (keepsLast_toMap full).names
  calc
    r.toMap.size = r.toMap.keys.length := (List.length_map _).symm
    _ = r.columns.length := same.length_eq
    _ = r.size := full

theorem agrees (full : r.columns.length = r.values.length) (distinct : r.columns.Nodup) :
    r.Agrees where
  pairs := fun name v => by
    simp only [List.mem_iff_getElem?, getElem?_pairs, get?_eq_some_iff,
      isFirst_iff_of_nodup distinct]
  toMap := toMap_get?_of_nodup full distinct
  toJson := by
    rintro members written name json
    obtain ⟨_, same, keeps⟩ := keepsLast_toJson full
    cases written.symm.trans same
    rw [keeps.values]
    simp only [get?_eq_some_iff, isFirst_iff_of_nodup distinct, isLast_iff_of_nodup distinct]
    grind
  size := size_toMap_of_nodup full distinct

/-- A row with a value for each of its columns is read by position, by the first column of a name,
and as a map or an object of the last ones; where the names of the columns are different, all of
them agree. -/
theorem reads_agree (r : Row) (full : r.columns.length = r.values.length) :
    r.Reads ∧ (r.columns.Nodup → r.Agrees) :=
  ⟨reads full, agrees full⟩

def petWithOwner : Row := ⟨["name", "age", "name"], [.text "Rex", .int 3, .text "Ann"]⟩

/-- By name the pet is read, but the map keeps the owner; the pet alone is read in one way. -/
theorem reads_agree_petWithOwner :
    petWithOwner.Reads ∧ petWithOwner.get "name" = .ok (.text "Rex") ∧
      ("name", .text "Ann") ∈ petWithOwner.toMap.entries ∧
      (⟨["name", "age"], [.text "Rex", .int 3]⟩ : Row).Agrees := by
  have reads : petWithOwner.Reads := (reads_agree petWithOwner rfl).1
  refine ⟨reads, ?_, ?_, (reads_agree _ rfl).2 (by decide)⟩
  · exact (reads.get.ok _ _).mpr ((reads.get? _ _).mpr ⟨0, ⟨rfl, by simp⟩, rfl⟩)
  · refine (reads.toMap.values _ _).mpr ⟨2, _, ⟨rfl, fun j after => ?_⟩, rfl, rfl⟩
    rw [List.getElem?_eq_none after]
    exact nofun

end TableAccess.Row
