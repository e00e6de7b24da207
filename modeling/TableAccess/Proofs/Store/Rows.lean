import TableAccess.Proofs.Outcome
import TableAccess.Store.Request

/-!
# Rows of a table

A table is sound if its columns have different names, its rows different numbers, and every row has
a cell for each column, the one that is another name for the row number showing just that. Here is
told what a sound table's rows look like after assignments: an assigned column holds the cell that
the last assignment to it stores, and every other column what it held before.
-/

namespace TableAccess

theorem Text.same_iff {first second : String} :
    Text.same first second = true ↔ Text.lowercase first = Text.lowercase second := by
  simp [Text.same]

theorem Text.same_comm (first second : String) : Text.same first second = Text.same second first := by
  rw [Bool.eq_iff_iff, same_iff, same_iff, eq_comm]

theorem Text.same_congr_right {text first second : String} (same : Text.same first second = true) :
    Text.same text first = Text.same text second := by
  rw [Text.same_iff] at same
  simp only [Text.same, same]

/-! ## Places -/

namespace Definition

variable {d : Definition} {name other : String} {i j : Nat} {c : StoredColumn}

/-- The columns have different names. -/
def Apart (d : Definition) : Prop :=
  d.columns.Pairwise fun first second => Text.same first.name second.name = false

instance (d : Definition) : Decidable d.Apart :=
  inferInstanceAs (Decidable (List.Pairwise _ d.columns))

/-- The position of the column that is another name for the row number. -/
def aliasPosition? (d : Definition) : Option Nat := d.rowidAlias?.bind d.position?

theorem position?_congr (same : Text.same name other = true) :
    d.position? name = d.position? other := by
  unfold position?
  rw [Text.same_iff] at same
  simp only [Text.same, same]

theorem of_position? (found : d.position? name = some i) :
    ∃ c, d.columns[i]? = some c ∧ Text.same c.name name = true := by
  obtain ⟨inside, named, _⟩ := List.findIdx?_eq_some_iff_getElem.mp found
  exact ⟨d.columns[i], List.getElem?_eq_getElem inside, named⟩

theorem lt_of_position? (found : d.position? name = some i) : i < d.columns.length := by
  obtain ⟨inside, _⟩ := List.findIdx?_eq_some_iff_getElem.mp found
  exact inside

/-- A column of different ones is found by its name. -/
theorem position?_name (apart : d.Apart) (here : d.columns[i]? = some c) :
    d.position? c.name = some i := by
  obtain ⟨inside, rfl⟩ := List.getElem?_eq_some_iff.mp here
  refine List.findIdx?_eq_some_iff_getElem.mpr ⟨inside, by simp [Text.same], fun j before => ?_⟩
  have differ := List.pairwise_iff_getElem.mp apart j i (Nat.lt_trans before inside) inside before
  exact ne_true_of_eq_false differ

/-- A column stands for the row number if it is at the place of the one that does. -/
theorem namesNumber_iff (found : d.position? name = some i) :
    d.namesNumber name = true ↔ d.aliasPosition? = some i := by
  unfold namesNumber aliasPosition?
  rw [found]
  cases shows : d.rowidAlias? with
  | none => simp
  | some shown =>
      simp only [Option.map_some, Option.getD_some, Option.bind_some]
      constructor
      · intro same
        rw [← position?_congr same, found]
      · intro at_same
        obtain ⟨c, here, named⟩ := of_position? found
        obtain ⟨c', here', named'⟩ := of_position? at_same
        cases here.symm.trans here'
        rw [Text.same_iff] at named named' ⊢
        exact named.symm.trans named'

theorem position?_of_place? (found : d.place? name = some (.cell i)) : d.position? name = some i := by
  unfold place? at found
  split at found
  · cases found
    assumption
  · split at found <;> cases found

theorem namesNumber_of_place? (found : d.place? name = some .number) :
    d.namesNumber name = true := by
  unfold place? at found
  split at found
  · cases found
  · split at found
    · assumption
    · cases found

/-- An integer is reported as such, in whatever case of letters it was declared. -/
theorem uppercase_reportedType_iff :
    Text.uppercase c.reportedType = "INTEGER" ↔ Text.uppercase c.typeName = "INTEGER" := by
  unfold StoredColumn.reportedType
  dsimp only
  split
  · rename_i standard
    -- a standard type is written in capital letters already
    simp only [StoredColumn.standardTypes, List.contains_iff_mem, List.mem_cons, List.not_mem_nil,
      or_false] at standard
    generalize Text.uppercase c.typeName = capital at standard ⊢
    rcases standard with rfl | rfl | rfl | rfl | rfl | rfl <;> simp [Text.uppercase]
  · rfl

/-- A table numbers its rows, and a column is the only one of its key and declared as an integer, in
whatever case of letters. -/
structure KeyedBy (d : Definition) (key : StoredColumn) : Prop where
  numbered : d.withoutRowid = false
  only : d.keyColumns = [key]
  integral : Text.uppercase key.typeName = "INTEGER"

/-- The rows are numbered by a column, which holds of such a key unless it is declared in descending
order. -/
structure NumberedBy (d : Definition) (key : StoredColumn) : Prop extends d.KeyedBy key where
  ascending : key.descending = false

theorem KeyedBy.mem (keyed : d.KeyedBy c) : c ∈ d.columns := by
  have member : c ∈ d.keyColumns := keyed.only ▸ List.mem_singleton_self c
  exact (List.mem_filter.mp member).1

theorem keyColumns_describe (d : Definition) : d.describe.keyColumns = d.keyColumns.map fun c =>
    { name := c.name
      declared := c.reportedType
      nullable := !(c.notNull || (d.withoutRowid && c.primaryKey))
      primaryKey := c.primaryKey } :=
  List.filter_map

/-- The column that is another name for the row number is the one by which rows are numbered. -/
theorem rowidAlias?_eq_some_iff :
    d.rowidAlias? = some name ↔ ∃ key, d.NumberedBy key ∧ key.name = name := by
  unfold rowidAlias?
  constructor
  · intro named
    split at named
    · cases named
    · rename_i numbered
      split at named
      · rename_i key only
        split at named
        · rename_i integral
          obtain ⟨integral, ascending⟩ := Bool.and_eq_true_iff.mp integral
          have keyed : d.KeyedBy key := ⟨eq_false_of_ne_true numbered, only, eq_of_beq integral⟩
          exact ⟨key, ⟨keyed, by simpa using ascending⟩, Option.some.inj named⟩
        · cases named
      · cases named
  · rintro ⟨key, ⟨⟨numbered, only, integral⟩, ascending⟩, rfl⟩
    rw [numbered, only]
    simp [StoredColumn.isInteger, integral, ascending]

/-- A description shows such a key, in whatever order it is declared. -/
theorem isSome_rowidAlias?_describe :
    d.describe.rowidAlias?.isSome = true ↔ ∃ key, d.KeyedBy key := by
  unfold Table.rowidAlias?
  rw [keyColumns_describe]
  constructor
  · intro shown
    split at shown
    · cases shown
    · rename_i numbered
      split at shown
      · rename_i own only
        obtain ⟨key, single, same⟩ := List.map_eq_singleton_iff.mp only
        split at shown
        · rename_i integral
          have declared : own.declared = key.reportedType := by rw [← same]
          rw [declared, uppercase_reportedType_iff] at integral
          exact ⟨key, eq_false_of_ne_true numbered, single, integral⟩
        · cases shown
      · cases shown
  · rintro ⟨key, numbered, only, integral⟩
    have rowids : d.describe.withoutRowid = false := numbered
    have integer := uppercase_reportedType_iff.mpr integral
    rw [rowids, only]
    simp [integer]

/-- The column that is another name for the row number prefers integers. -/
theorem type_of_alias (apart : d.Apart) (position : d.aliasPosition? = some i)
    (here : d.columns[i]? = some c) : c.type = .integer := by
  obtain ⟨name, named, found⟩ := Option.bind_eq_some_iff.mp position
  obtain ⟨key, keyed, rfl⟩ := rowidAlias?_eq_some_iff.mp named
  obtain ⟨j, at_key⟩ := List.getElem?_of_mem keyed.mem
  cases found.symm.trans (position?_name apart at_key)
  cases here.symm.trans at_key
  unfold StoredColumn.type ColumnType.ofDeclared
  rw [keyed.integral]
  rfl

/-- A column that does not stand for the row number has a place of its own. -/
theorem of_hasColumn (known : d.hasColumn name = true) (unnamed : ¬ d.namesNumber name = true) :
    ∃ i c, d.columns[i]? = some c ∧ d.position? name = some i ∧ Text.same c.name name = true := by
  unfold hasColumn at known
  cases found : d.place? name with
  | none => simp [found] at known
  | some place =>
      cases place with
      | number => exact absurd (namesNumber_of_place? found) unnamed
      | cell i =>
          have position := position?_of_place? found
          obtain ⟨c, here, same⟩ := of_position? position
          exact ⟨i, c, here, position, same⟩

theorem typeOf_of_namesNumber (apart : d.Apart) (known : d.hasColumn name = true)
    (named : d.namesNumber name = true) : d.typeOf name = .integer := by
  unfold hasColumn at known
  unfold typeOf
  cases found : d.place? name with
  | none => simp [found] at known
  | some place =>
      cases place with
      | number => rfl
      | cell i =>
          have position := position?_of_place? found
          obtain ⟨c, here, _⟩ := of_position? position
          simp [here, type_of_alias apart ((namesNumber_iff position).mp named) here]

/-- A described column is a stored one of exactly its name. -/
theorem of_describe_hasColumn (known : d.describe.hasColumn name = true) :
    ∃ (i : Nat) (c : StoredColumn), d.columns[i]? = some c ∧ c.name = name := by
  obtain ⟨_, listed, rfl⟩ := Table.hasColumn_iff.mp known
  obtain ⟨c, member, rfl⟩ := List.mem_map.mp listed
  obtain ⟨i, here⟩ := List.getElem?_of_mem member
  exact ⟨i, c, here, rfl⟩

/-- Names of one described column are the same name. -/
theorem eq_of_position? (apart : d.Apart) (known : d.describe.hasColumn name = true)
    (there : d.describe.hasColumn other = true) (same : d.position? name = d.position? other) :
    name = other := by
  obtain ⟨i, c, at_name, rfl⟩ := of_describe_hasColumn known
  obtain ⟨j, own, at_other, rfl⟩ := of_describe_hasColumn there
  rw [position?_name apart at_name, position?_name apart at_other] at same
  cases same
  rw [Option.some.inj (at_name.symm.trans at_other)]

theorem eq_of_same (apart : d.Apart) (known : d.describe.hasColumn name = true)
    (there : d.describe.hasColumn other = true) (same : Text.same name other = true) :
    name = other :=
  eq_of_position? apart known there (position?_congr same)

/-- No two described columns stand for the row number. -/
theorem eq_of_namesNumber (apart : d.Apart) (known : d.describe.hasColumn name = true)
    (there : d.describe.hasColumn other = true) (named : d.namesNumber name = true)
    (others : d.namesNumber other = true) : name = other := by
  obtain ⟨i, c, at_name, rfl⟩ := of_describe_hasColumn known
  obtain ⟨j, own, at_other, rfl⟩ := of_describe_hasColumn there
  have first := position?_name apart at_name
  have second := position?_name apart at_other
  rw [namesNumber_iff first] at named
  rw [namesNumber_iff second, named] at others
  exact eq_of_position? apart known there (first.trans (others.trans second.symm))

theorem position?_isSome (listed : c ∈ d.columns) : (d.position? c.name).isSome = true := by
  unfold position?
  rw [List.findIdx?_isSome, List.any_eq_true]
  exact ⟨c, listed, Text.same_iff.mpr rfl⟩

/-- A described column is found by its name. -/
theorem hasColumn_of_describe (known : d.describe.hasColumn name = true) :
    d.hasColumn name = true := by
  obtain ⟨_, c, here, rfl⟩ := of_describe_hasColumn known
  obtain ⟨i, position⟩ := Option.isSome_iff_exists.mp
    (position?_isSome (List.mem_of_getElem? here))
  simp [hasColumn, place?, position]

end Definition

/-! ## Sound tables -/

/-- A row has a cell for each column, and the column that is another name for the row number shows
just that. -/
structure StoredRow.Fits (d : Definition) (row : StoredRow) : Prop where
  complete : row.cells.length = d.columns.length
  numbered : ∀ i, d.aliasPosition? = some i → row.at (.cell i) = .integer row.number

instance (d : Definition) (row : StoredRow) : Decidable (row.Fits d) :=
  decidable_of_iff (row.cells.length = d.columns.length ∧
      ∀ i ∈ d.aliasPosition?, row.at (.cell i) = .integer row.number)
    ⟨fun ⟨complete, numbered⟩ => ⟨complete, numbered⟩,
      fun fits => ⟨fits.complete, fits.numbered⟩⟩

/-- A table whose columns have different names, whose rows have different numbers, and each of
whose rows fits its definition. -/
structure StoredTable.Sound (t : StoredTable) : Prop where
  apart : t.definition.Apart
  distinct : (t.rows.map (·.number)).Nodup
  fits : ∀ row ∈ t.rows, row.Fits t.definition

instance (t : StoredTable) : Decidable t.Sound :=
  decidable_of_iff (t.definition.Apart ∧ (t.rows.map (·.number)).Nodup ∧
      ∀ row ∈ t.rows, row.Fits t.definition)
    ⟨fun ⟨apart, distinct, fits⟩ => ⟨apart, distinct, fits⟩,
      fun sound => ⟨sound.apart, sound.distinct, sound.fits⟩⟩

namespace StoredTable

variable {t : StoredTable} {row image other : StoredRow} {number : Int64} {cells : List Cell}
  {column : String} {i : Nat} {c : StoredColumn}

theorem cellAt_of_position? (found : t.definition.position? column = some i) :
    t.cellAt row column = row.at (.cell i) := by
  simp [cellAt, Definition.place?, found]

theorem cellAt_of_place? {place : CellPlace} (found : t.definition.place? column = some place) :
    t.cellAt row column = row.at place := by
  simp [cellAt, found]

theorem cellAt_of_unknown (unknown : ¬ t.definition.hasColumn column = true) :
    t.cellAt row column = .null := by
  simp only [Definition.hasColumn, Bool.not_eq_true, Option.isSome_eq_false_iff,
    Option.isNone_iff_eq_none] at unknown
  simp [cellAt, unknown]

/-- A column that stands for the row number shows it. -/
theorem cellAt_of_namesNumber (fits : row.Fits t.definition)
    (known : t.definition.hasColumn column = true)
    (named : t.definition.namesNumber column = true) :
    t.cellAt row column = .integer row.number := by
  unfold Definition.hasColumn at known
  cases found : t.definition.place? column with
  | none => simp [found] at known
  | some place =>
      rw [cellAt_of_place? found]
      cases place with
      | number => rfl
      | cell i =>
          have position := Definition.position?_of_place? found
          exact fits.numbered i ((Definition.namesNumber_iff position).mp named)

@[simp] theorem number_numbered : (t.numbered number cells).number = number := by
  unfold numbered
  split <;> rfl

theorem at_numbered (complete : cells.length = t.definition.columns.length) :
    (t.numbered number cells).at (.cell i) =
      if t.definition.aliasPosition? = some i then .integer number else cells.getD i .null := by
  unfold numbered
  rw [← Definition.aliasPosition?]
  cases placed : t.definition.aliasPosition? with
  | none => simp [StoredRow.at]
  | some position =>
      obtain ⟨_, _, found⟩ := Option.bind_eq_some_iff.mp placed
      have inside := Definition.lt_of_position? found
      rw [← complete] at inside
      by_cases here : position = i
      · subst here
        simp [StoredRow.at, inside]
      · simp [StoredRow.at, here, List.getElem?_set_ne]

theorem fits_numbered (complete : cells.length = t.definition.columns.length) :
    (t.numbered number cells).Fits t.definition := by
  constructor
  · unfold numbered
    split <;> simp [complete]
  · intro i position
    rw [at_numbered complete, if_pos position, number_numbered]

/-- Rows of one number that show the same in every column are the same. -/
theorem eq_of_cellAt (apart : t.definition.Apart) (fits : row.Fits t.definition)
    (others : other.Fits t.definition) (numbers : row.number = other.number)
    (cells : ∀ c ∈ t.definition.columns, t.cellAt row c.name = t.cellAt other c.name) :
    row = other := by
  obtain ⟨number, first⟩ := row
  obtain ⟨_, second⟩ := other
  cases numbers
  refine congrArg (StoredRow.mk number) (List.ext_getElem ?_ fun i inside there => ?_)
  · exact fits.complete.trans others.complete.symm
  · have within : i < t.definition.columns.length := fits.complete ▸ inside
    have here := List.getElem?_eq_getElem within
    have found := Definition.position?_name apart here
    have same := cells _ (List.getElem_mem within)
    rw [cellAt_of_position? found, cellAt_of_position? found] at same
    simpa [StoredRow.at, inside, there] using same

/-! ## Rows after assignments -/

variable {as others : List (Assignment Cell)} {a : Assignment Cell}

/-- The cell that assignments leave in a column. -/
def cellAfter (t : StoredTable) (as : List (Assignment Cell)) (row : StoredRow)
    (c : StoredColumn) : Cell :=
  match as.reverse.find? fun a => Text.same a.column c.name with
  | some a => c.type.stored (t.assigned row a)
  | none => t.cellAt row c.name

def numberAfter (t : StoredTable) (as : List (Assignment Cell)) (row : StoredRow) :
    Except Fault Int64 :=
  match as.reverse.find? fun a => t.definition.namesNumber a.column with
  | some a => rowNumber (t.assigned row a)
  | none => .ok row.number

theorem updatedRow_eq (as : List (Assignment Cell)) (row : StoredRow) :
    t.updatedRow as row = (t.numberAfter as row).map fun number =>
      t.numbered number (t.definition.columns.map (t.cellAfter as row)) := by
  unfold updatedRow numberAfter
  cases found : as.reverse.find? fun a => t.definition.namesNumber a.column with
  | none =>
      simp only [found]
      rfl
  | some a =>
      simp only [found]
      cases rowNumber (t.assigned row a) <;> rfl

theorem updatedRow_eq_ok_iff : t.updatedRow as row = .ok image ↔
    ∃ number, t.numberAfter as row = .ok number ∧
      t.numbered number (t.definition.columns.map (t.cellAfter as row)) = image := by
  rw [updatedRow_eq]
  cases t.numberAfter as row with
  | ok number => simp [Except.map]
  | error fault => simp [Except.map]

theorem updatedRow_of_numberAfter (counted : t.numberAfter as row = .ok number) :
    ∃ image, t.updatedRow as row = .ok image ∧ image.number = number :=
  ⟨_, updatedRow_eq_ok_iff.mpr ⟨number, counted, rfl⟩, number_numbered⟩

theorem asWhole_of_rowNumber {cell : Cell} (counted : rowNumber cell = .ok number) :
    cell.asNumber.asWhole = .integer number := by
  unfold rowNumber at counted
  split at counted
  · rename_i n whole
    cases counted
    exact whole
  · cases counted

/-- The last of several assignments of a kind is the first one found from the end. -/
theorem find?_reverse_last {p : Assignment Cell → Bool} (here : p a = true)
    (last : ∀ later ∈ others, p later = false) : (as ++ a :: others).reverse.find? p = some a := by
  have none_later : others.reverse.find? p = none := by
    simpa using last
  simp [none_later, here]

theorem fits_of_updatedRow (ended : t.updatedRow as row = .ok image) :
    image.Fits t.definition := by
  obtain ⟨number, _, rfl⟩ := updatedRow_eq_ok_iff.mp ended
  exact fits_numbered (by simp)

/-- What an updated row shows in a column. -/
theorem cellAt_updatedRow (apart : t.definition.Apart) (ended : t.updatedRow as row = .ok image)
    (here : t.definition.columns[i]? = some c) :
    t.cellAt image c.name =
      if t.definition.namesNumber c.name then .integer image.number else t.cellAfter as row c := by
  have found := Definition.position?_name apart here
  obtain ⟨number, _, rfl⟩ := updatedRow_eq_ok_iff.mp ended
  rw [cellAt_of_position? found, at_numbered (by simp), number_numbered]
  simp only [Definition.namesNumber_iff found]
  simp [here]

/-- A row keeps its number if no assignment stands for it. -/
theorem number_updatedRow (ended : t.updatedRow as row = .ok image)
    (kept : ∀ a ∈ as, t.definition.namesNumber a.column = false) : image.number = row.number := by
  obtain ⟨number, counted, rfl⟩ := updatedRow_eq_ok_iff.mp ended
  have unnamed : as.reverse.find? (fun a => t.definition.namesNumber a.column) = none := by
    simpa using kept
  rw [numberAfter, unnamed] at counted
  cases counted
  exact number_numbered

/-- Assignments leave a column alone if none of them is to it, under any of its names. -/
theorem changes_eq_false_iff : Concern.changes t (as.map (·.column)) column = false ↔
    ∀ a ∈ as, Text.same a.column column = false ∧
      (t.definition.namesNumber column = true → t.definition.namesNumber a.column = false) := by
  unfold Concern.changes
  simp only [List.any_eq_false, List.forall_mem_map, Bool.or_eq_true, Bool.and_eq_true,
    Bool.not_eq_true, not_or, not_and]
  refine forall₂_congr fun a _ => and_congr_right fun _ => ?_
  cases t.definition.namesNumber a.column <;> cases t.definition.namesNumber column <;> simp

/-- Assignments to described columns leave every other described column alone. -/
theorem changes_of_described (apart : t.definition.Apart) {names : List String}
    (known : ∀ name ∈ names, t.definition.describe.hasColumn name = true)
    (here : t.definition.describe.hasColumn column = true) (differ : column ∉ names) :
    Concern.changes t names column = false := by
  unfold Concern.changes
  rw [List.any_eq_false]
  intro name listed
  simp only [Bool.or_eq_true, Bool.and_eq_true, not_or, not_and]
  -- two names for one column would be the same name
  constructor
  · intro same
    exact differ (Definition.eq_of_same apart (known name listed) here same ▸ listed)
  · intro named others
    exact differ (Definition.eq_of_namesNumber apart (known name listed) here named others ▸ listed)

/-- An updated row shows what it showed before in every column that is not assigned. -/
theorem cellAt_updatedRow_of_unchanged (apart : t.definition.Apart) (fits : row.Fits t.definition)
    (ended : t.updatedRow as row = .ok image)
    (unchanged : Concern.changes t (as.map (·.column)) column = false) :
    t.cellAt image column = t.cellAt row column := by
  rw [changes_eq_false_iff] at unchanged
  by_cases named : t.definition.namesNumber column = true
  · have kept : image.number = row.number :=
      number_updatedRow ended fun a member => (unchanged a member).2 named
    by_cases known : t.definition.hasColumn column = true
    · rw [cellAt_of_namesNumber (fits_of_updatedRow ended) known named,
        cellAt_of_namesNumber fits known named, kept]
    · rw [cellAt_of_unknown known, cellAt_of_unknown known]
  · by_cases known : t.definition.hasColumn column = true
    · obtain ⟨i, c, here, position, same⟩ := Definition.of_hasColumn known named
      have own := Definition.position?_name apart here
      have shown (r : StoredRow) : t.cellAt r column = t.cellAt r c.name := by
        rw [cellAt_of_position? position, cellAt_of_position? own]
      have unassigned : as.reverse.find? (fun a => Text.same a.column c.name) = none := by
        rw [List.find?_eq_none]
        intro a member
        rw [Text.same_congr_right same]
        exact ne_true_of_eq_false (unchanged a (List.mem_reverse.mp member)).1
      rw [shown, shown, cellAt_updatedRow apart ended here, cellAfter, unassigned]
      rw [Definition.namesNumber_iff position, ← Definition.namesNumber_iff own] at named
      rw [if_neg named]
    · rw [cellAt_of_unknown known, cellAt_of_unknown known]

/-- An updated row shows in an assigned column what the last assignment to it stores there. -/
theorem cellAt_updatedRow_of_assigned (apart : t.definition.Apart)
    (ended : t.updatedRow (as ++ a :: others) row = .ok image)
    (known : t.definition.hasColumn a.column = true)
    (last : Concern.changes t (others.map (·.column)) a.column = false) :
    t.cellAt image a.column = (t.definition.typeOf a.column).stored (t.assigned row a) := by
  rw [changes_eq_false_iff] at last
  by_cases named : t.definition.namesNumber a.column = true
  · -- the row number is what counts, whichever of its names is assigned
    have newest : (as ++ a :: others).reverse.find? (fun a => t.definition.namesNumber a.column) =
        some a := find?_reverse_last named fun later member =>
      (last later member).2 named
    rw [cellAt_of_namesNumber (fits_of_updatedRow ended) known named,
      Definition.typeOf_of_namesNumber apart known named]
    obtain ⟨number, counted, rfl⟩ := updatedRow_eq_ok_iff.mp ended
    simp only [numberAfter, newest] at counted
    rw [number_numbered, ColumnType.stored, asWhole_of_rowNumber counted]
  · obtain ⟨i, c, here, position, same⟩ := Definition.of_hasColumn known named
    have own := Definition.position?_name apart here
    have newest : (as ++ a :: others).reverse.find? (fun a => Text.same a.column c.name) =
        some a := find?_reverse_last (by rwa [Text.same_comm]) fun later member => by
      rw [Text.same_congr_right same]
      exact (last later member).1
    have shown : t.cellAt image a.column = t.cellAt image c.name := by
      rw [cellAt_of_position? position, cellAt_of_position? own]
    rw [Definition.namesNumber_iff position, ← Definition.namesNumber_iff own] at named
    rw [shown, cellAt_updatedRow apart ended here, if_neg named, cellAfter, newest]
    simp [Definition.typeOf, Definition.place?, position, here]

/-- Assignments that replace cells make the same of a row before and after other assignments to
the same columns. -/
theorem updatedRow_updatedRow {mid : StoredRow} (apart : t.definition.Apart)
    (fits : row.Fits t.definition) (columns : as.map (·.column) = others.map (·.column))
    (plain : ∀ a ∈ as, a.increment = false) (ended : t.updatedRow others row = .ok mid) :
    t.updatedRow as mid = t.updatedRow as row := by
  have assigned_eq {a : Assignment Cell} (member : a ∈ as) :
      t.assigned mid a = t.assigned row a := by
    simp [assigned, plain a member]
  have numbers : t.numberAfter as mid = t.numberAfter as row := by
    unfold numberAfter
    split
    · rename_i a found
      exact congrArg rowNumber (assigned_eq (List.mem_reverse.mp (List.mem_of_find?_eq_some found)))
    · rename_i unnamed
      refine congrArg Except.ok (number_updatedRow ended ?_)
      have each : ∀ name ∈ as.map (·.column), t.definition.namesNumber name = false := by
        simpa using unnamed
      rw [columns] at each
      simpa using each
  -- a cell that is not assigned is one that the other assignments have left alone, too
  have cells {c : StoredColumn} (unnamed : ¬ t.definition.namesNumber c.name = true) :
      t.cellAfter as mid c = t.cellAfter as row c := by
    unfold cellAfter
    split
    · rename_i a found
      rw [assigned_eq (List.mem_reverse.mp (List.mem_of_find?_eq_some found))]
    · rename_i unassigned
      refine cellAt_updatedRow_of_unchanged apart fits ended ?_
      rw [← columns, changes_eq_false_iff]
      refine fun a member => ⟨?_, fun named => absurd named unnamed⟩
      have each := List.find?_eq_none.mp unassigned a (List.mem_reverse.mpr member)
      exact eq_false_of_ne_true each
  cases counted : t.numberAfter as row with
  | error fault => simp only [updatedRow_eq, numbers, counted, Except.map]
  | ok number =>
      obtain ⟨once, first, rfl⟩ := updatedRow_of_numberAfter (numbers.trans counted)
      obtain ⟨alone, second, same⟩ := updatedRow_of_numberAfter counted
      rw [first, second]
      refine congrArg Except.ok (eq_of_cellAt apart (fits_of_updatedRow first)
        (fits_of_updatedRow second) same.symm fun c member => ?_)
      obtain ⟨i, here⟩ := List.getElem?_of_mem member
      rw [cellAt_updatedRow apart first here, cellAt_updatedRow apart second here]
      split
      · rw [same]
      · rename_i unnamed
        exact cells unnamed

end StoredTable

end TableAccess
