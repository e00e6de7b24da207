import TableAccess.Proofs.Predicate.Compilation
import TableAccess.Proofs.Store.LastWriter

/-!
# Columns that are assigned twice

The entries of a change have different keys, but two of these can name one column: the column as
such, and the column with the suffix of an increment. Of two assignments to a column the last one
counts, and that is the increment, because longer keys stand later. So the entry that replaces such
a column is lost, whatever its value is. Every other entry takes effect.
-/

namespace TableAccess

open Attempt (Ends)

def incrementKey (column : String) : String := column ++ "__" ++ incrementSuffix

/-- A column is contended by keys if it is one of them, and so is the key that increments it. -/
structure Table.Contended (t : Table) (keys : List String) (column : String) : Prop where
  replaced : column ∈ keys
  incremented : incrementKey column ∈ keys
  known : t.hasColumn column = true
  unnamed : t.hasColumn (incrementKey column) = false

theorem lt_incrementKey (column : String) : column < incrementKey column := by
  have longer : column.toList < column.toList ++ "__inc".toList := by
    induction column.toList with
    | nil => exact List.Lex.nil
    | cons c rest ih => exact List.Lex.cons ih
  refine String.lt_iff.mpr ?_
  simpa [incrementKey, incrementSuffix] using longer

theorem incrementKey_injective : Function.Injective incrementKey := by
  intro first second same
  simpa [incrementKey, String.append_assoc] using same

/-! ## Entries and their assignments -/

namespace Assignment

variable {α : Type} {t : Table} {column : String} {list given : List (String × α)}
  {as others : List (Assignment α)}

/-- The assignment of an entry: it replaces the column that is the key, or it increments a column
whose key for this is no column itself. -/
structure Of (t : Table) (entry : String × α) (a : Assignment α) : Prop where
  known : t.hasColumn a.column = true
  operand : a.operand = entry.2
  replaces : a.increment = false → entry.1 = a.column
  adds : a.increment = true → entry.1 = incrementKey a.column ∧ t.hasColumn entry.1 = false

theorem Of.of_ofKey {entry : String × α} {a : Assignment α}
    (read : ofKey t entry.1 entry.2 = .ok a) : Of t entry a := by
  obtain ⟨suffix, split, increment, operand⟩ := Assignment.of_ofKey read
  have known := Table.hasColumn_of_splitKey split
  cases suffix with
  | none =>
      exact ⟨known, operand, fun _ => (Table.eq_of_splitKey split).symm,
        fun added => nomatch increment.symm.trans added⟩
  | some suffix =>
      refine ⟨known, operand, fun plain => (nomatch increment.symm.trans plain), fun _ => ?_⟩
      have unnamed := Table.hasColumn_eq_false_of_splitKey split
      rcases names_of_ofKey read with same | ⟨_, same⟩
      · rw [same, known] at unnamed
        cases unnamed
      · exact ⟨same, unnamed⟩

theorem forall₂_of_ofKeys (read : ofKeys t list = .ok as) : List.Forall₂ (Of t) list as := by
  induction list generalizing as with
  | nil =>
      cases read
      exact .nil
  | cons entry rest ih =>
      obtain ⟨a, first, others⟩ := bind_eq_ok_iff.mp read
      obtain ⟨later, next, whole⟩ := bind_eq_ok_iff.mp others
      cases whole
      exact .cons (.of_ofKey first) (ih next)

theorem Of.of_column {entry : String × α} {a : Assignment α} (here : Of t entry a)
    (key : entry.1 = column) (known : t.hasColumn column = true) :
    a.increment = false ∧ a.column = column := by
  cases added : a.increment with
  | true => exact nomatch (key ▸ (here.adds added).2).symm.trans known
  | false => exact ⟨rfl, (here.replaces added).symm.trans key⟩

theorem Of.of_incrementKey {entry : String × α} {a : Assignment α} (here : Of t entry a)
    (key : entry.1 = incrementKey column) (unnamed : t.hasColumn (incrementKey column) = false) :
    a.increment = true ∧ a.column = column := by
  cases added : a.increment with
  | true => exact ⟨rfl, incrementKey_injective ((here.adds added).1.symm.trans key)⟩
  | false => exact nomatch ((here.replaces added).symm.trans key ▸ here.known).symm.trans unnamed

/-- Two assignments to one column, in the order of their keys, replace and increment it. -/
theorem Of.contended {first second : String × α} {a b : Assignment α} {keys : List String}
    (here : Of t first a) (there : Of t second b) (before : first.1 < second.1)
    (listed : first.1 ∈ keys ∧ second.1 ∈ keys) (same : a.column = b.column) :
    a.increment = false ∧ t.Contended keys a.column := by
  cases added : a.increment with
  | true =>
      exfalso
      have key := (here.adds added).1
      cases adding : b.increment with
      | true =>
          rw [key, same, ← (there.adds adding).1] at before
          exact String.lt_irrefl _ before
      | false =>
          rw [key, same, ← there.replaces adding] at before
          exact String.lt_irrefl _ (String.lt_trans before (lt_incrementKey _))
  | false =>
      have key := here.replaces added
      cases adding : b.increment with
      | true =>
          obtain ⟨longer, unnamed⟩ := there.adds adding
          rw [← same] at longer
          exact ⟨rfl, key ▸ listed.1, longer ▸ listed.2, here.known, longer ▸ unnamed⟩
      | false =>
          rw [key, same, ← there.replaces adding] at before
          exact absurd before (String.lt_irrefl _)

/-- Of the assignments of entries in the order of their keys, the earlier one of two to a column
replaces it, and the column is contended. -/
theorem pairwise_of_forall₂ (each : List.Forall₂ (Of t) list as)
    (ordered : list.Pairwise fun first second => first.1 < second.1) {keys : List String}
    (listed : ∀ entry ∈ list, entry.1 ∈ keys) : as.Pairwise fun a b =>
      a.column = b.column → a.increment = false ∧ t.Contended keys a.column := by
  induction each with
  | nil => exact .nil
  | @cons entry a rest as here later ih =>
      obtain ⟨after, ordered⟩ := List.pairwise_cons.mp ordered
      obtain ⟨first, others⟩ := List.forall_mem_cons.mp listed
      refine List.pairwise_cons.mpr ⟨fun b member same => ?_, ih ordered others⟩
      obtain ⟨entry', found, there⟩ := exists_of_forall₂ later.flip member
      exact here.contended there (after entry' found) ⟨first, others entry' found⟩ same

/-- No column is assigned twice exactly if none is contended. -/
theorem nodup_columns_iff (each : List.Forall₂ (Of t) list as)
    (ordered : list.Pairwise fun first second => first.1 < second.1) :
    (as.map (·.column)).Nodup ↔ ∀ column, ¬ t.Contended (list.map (·.1)) column := by
  constructor
  · intro distinct column contended
    obtain ⟨entry, member, replaced⟩ := List.mem_map.mp contended.replaced
    obtain ⟨other, found, incremented⟩ := List.mem_map.mp contended.incremented
    obtain ⟨a, listed, here⟩ := exists_of_forall₂ each member
    obtain ⟨b, there, adds⟩ := exists_of_forall₂ each found
    obtain ⟨plain, own⟩ := here.of_column replaced contended.known
    obtain ⟨adding, same⟩ := adds.of_incrementKey incremented contended.unnamed
    cases List.inj_on_of_nodup_map distinct listed there (own.trans same.symm)
    cases plain.symm.trans adding
  · intro free
    have pairs := pairwise_of_forall₂ each ordered fun entry member => List.mem_map_of_mem member
    refine List.pairwise_map.mpr (pairs.imp fun {a b} apart same => ?_)
    exact free a.column (apart same).2

/-! ## Assignments that later ones replace -/

/-- Assignments that differ only in operands of which a later assignment leaves nothing. -/
inductive Overwritten : List (Assignment α) → List (Assignment α) → Prop where
  | nil : Overwritten [] []
  | kept (a : Assignment α) {as others : List (Assignment α)} (rest : Overwritten as others) :
      Overwritten (a :: as) (a :: others)
  | lost (column : String) (increment : Bool) (v w : α) {as others : List (Assignment α)}
      (again : column ∈ as.map (·.column)) (rest : Overwritten as others) :
      Overwritten (⟨column, increment, v⟩ :: as) (⟨column, increment, w⟩ :: others)

theorem Overwritten.map {β : Type} (f : α → β) (same : Overwritten as others) :
    Overwritten (as.map (·.map f)) (others.map (·.map f)) := by
  induction same with
  | nil => exact .nil
  | kept a _ ih => exact .kept _ ih
  | lost column increment v w again _ ih =>
      refine .lost column increment (f v) (f w) ?_ ih
      simpa [Assignment.map, Function.comp_def] using again

theorem Overwritten.columns (same : Overwritten as others) :
    as.map (·.column) = others.map (·.column) := by
  induction same with
  | nil => rfl
  | kept a _ ih => rw [List.map_cons, List.map_cons, ih]
  | lost column increment v w _ _ ih => rw [List.map_cons, List.map_cons, ih]

theorem Overwritten.increments (same : Overwritten as others) :
    (as.filter (·.increment)).map (·.column) = (others.filter (·.increment)).map (·.column) := by
  induction same with
  | nil => rfl
  | kept a _ ih => cases added : a.increment <;> simp [added, ih]
  | lost column increment v w _ _ ih => cases increment <;> simp [ih]

/-- The last assignment of a kind is the same, if the kind is one of columns. -/
theorem Overwritten.find?_eq (same : Overwritten as others) (kind : String → Bool) :
    as.reverse.find? (fun a => kind a.column) = others.reverse.find? fun a => kind a.column := by
  induction same with
  | nil => rfl
  | kept a _ ih => simp [List.find?_append, ih]
  | @lost column increment v w as others again _ ih =>
      simp only [List.reverse_cons, List.find?_append, ih]
      cases here : kind column with
      | false => simp [here]
      | true =>
          obtain ⟨b, member, rfl⟩ := List.mem_map.mp again
          have found : (as.reverse.find? fun a => kind a.column).isSome = true :=
            List.find?_isSome.mpr ⟨b, List.mem_reverse.mpr member, here⟩
          obtain ⟨last, found⟩ := Option.isSome_iff_exists.mp (ih ▸ found)
          rw [found]
          rfl

/-- Entries that differ only in the value of a column are read as assignments that come to the
same, if wherever the column is a key its increment follows. -/
theorem exists_overwritten (known : t.hasColumn column = true)
    (unnamed : t.hasColumn (incrementKey column) = false) (read : ofKeys t list = .ok as)
    (alike : List.Forall₂ (fun first second => first.1 = second.1 ∧
      (first.1 ≠ column → first.2 = second.2)) list given)
    (again : ∀ before v after, list = before ++ (column, v) :: after →
      incrementKey column ∈ after.map (·.1)) :
    ∃ others, ofKeys t given = .ok others ∧ Overwritten as others := by
  induction alike generalizing as with
  | nil =>
      cases read
      exact ⟨[], rfl, .nil⟩
  | @cons first second rest more same later ih =>
      obtain ⟨a, head, tail⟩ := bind_eq_ok_iff.mp read
      obtain ⟨as, next, whole⟩ := bind_eq_ok_iff.mp tail
      cases whole
      obtain ⟨others, reads, overwritten⟩ := ih next fun before v after split =>
        again (first :: before) v after (split ▸ rfl)
      obtain ⟨key, v⟩ := first
      obtain ⟨_, w⟩ := second
      obtain ⟨rfl, unchanged⟩ := same
      dsimp only at head unchanged
      by_cases here : key = column
      · subst here
        cases (ofKey_column known v).symm.trans head
        -- the entry is lost, as the increment that follows assigns the same column
        refine ⟨⟨key, false, w⟩ :: others, ?_, .lost key false v w ?_ overwritten⟩
        · exact bind_eq_ok_iff.mpr
            ⟨_, ofKey_column known w, bind_eq_ok_iff.mpr ⟨others, reads, rfl⟩⟩
        · obtain ⟨entry, member, longer⟩ := List.mem_map.mp (again [] v rest rfl)
          obtain ⟨b, listed, there⟩ := exists_of_forall₂ (forall₂_of_ofKeys next) member
          exact (there.of_incrementKey longer unnamed).2 ▸ List.mem_map_of_mem listed
      · obtain rfl := unchanged here
        exact ⟨a :: others, bind_eq_ok_iff.mpr ⟨a, head, bind_eq_ok_iff.mpr ⟨others, reads, rfl⟩⟩,
          .kept a overwritten⟩

/-- In the order of keys, the key that increments a column stands behind the column. -/
theorem incrementKey_follows (ordered : list.Pairwise fun first second => first.1 < second.1)
    (listed : incrementKey column ∈ list.map (·.1)) (before : List (String × α)) (v : α)
    (after : List (String × α)) (split : list = before ++ (column, v) :: after) :
    incrementKey column ∈ after.map (·.1) := by
  subst split
  obtain ⟨entry, member, key⟩ := List.mem_map.mp listed
  rcases List.mem_append.mp member with early | late
  · have less := (List.pairwise_append.mp ordered).2.2 entry early _ List.mem_cons_self
    rw [key] at less
    exact absurd (String.lt_trans less (lt_incrementKey column)) (String.lt_irrefl _)
  · rcases List.mem_cons.mp late with rfl | later
    · have less := lt_incrementKey column
      rw [← key] at less
      exact absurd less (String.lt_irrefl _)
    · exact key ▸ List.mem_map_of_mem later

end Assignment

/-! ## Rows -/

namespace StoredTable

variable {t : StoredTable} {as others : List (Assignment Cell)}

theorem updatedRow_of_overwritten (same : Assignment.Overwritten as others) (row : StoredRow) :
    t.updatedRow as row = t.updatedRow others row := by
  unfold updatedRow
  have cells (name : String) := same.find?_eq fun column => Text.same column name
  simp only [cells, same.find?_eq t.definition.namesNumber]

theorem inUpdateOrder_of_overwritten {α : Type} {as others : List (Assignment α)}
    (same : Assignment.Overwritten as others) (db : Database) (condition : Predicate)
    (rows : List StoredRow) :
    t.inUpdateOrder db condition as rows = t.inUpdateOrder db condition others rows := by
  unfold inUpdateOrder updateVisit?
  rw [same.columns, same.increments]

end StoredTable

namespace Change

variable {as others : List (Assignment Cell)}

theorem updateRows_of_overwritten (same : Assignment.Overwritten as others) (c : Concern)
    (table : String) (immediate : Int) (rows : List StoredRow) :
    updateRows c as table immediate rows = updateRows c others table immediate rows := by
  induction rows generalizing immediate with
  | nil => rfl
  | cons row rest ih =>
      unfold updateRows
      simp only [StoredTable.updatedRow_of_overwritten same, ih]

theorem updateWhere_of_overwritten (same : Assignment.Overwritten as others) (table : String)
    (chosen : Database → StoredTable → List StoredRow) :
    updateWhere table as chosen = updateWhere table others chosen := by
  unfold updateWhere
  simp only [same.columns, updateRows_of_overwritten same]

end Change

/-! ## Entries that take effect -/

/-- An image of a row shows what an assignment stores. -/
def StoredTable.Shows (t : StoredTable) (row image : StoredRow) (a : Assignment Cell) : Prop :=
  t.cellAt image a.column = (t.definition.typeOf a.column).stored (t.assigned row a)

/-- A change replaces the chosen rows of a table by images that show what assignments store, those
apart that replace a column contended by keys, as long as the table is described as it is stored.
If it fails, nothing has changed. -/
def Change.TakesEffect (change : Change Nat) (table : String) (described : Table)
    (keys : List String) (as : List (Assignment Cell))
    (chosen : StoredTable → StoredRow → Bool) : Prop :=
  ∀ x t, x.database.Sound → x.database.table? table = some t → t.definition.describe = described →
    change.Ends x
      (fun n y => n = (t.rows.filter (chosen t)).length ∧
        ∃ r, ∃ image : StoredRow → StoredRow,
          y.database = x.database.replaceTable { t with rows := r } ∧
          r.Perm (t.rows.map fun row => if chosen t row then image row else row) ∧
          ∀ row ∈ t.rows, chosen t row = true → ∀ a ∈ as,
            (a.increment = true ∨ ¬ described.Contended keys a.column) → t.Shows row (image row) a)
      fun _ y => y = x

theorem StoredTable.shows_of_updatedRow {t : StoredTable} {list : List (String × Cell)}
    {as : List (Assignment Cell)} {row image : StoredRow} (apart : t.definition.Apart)
    (each : List.Forall₂ (Assignment.Of t.definition.describe) list as)
    (ordered : list.Pairwise fun first second => first.1 < second.1)
    (ended : t.updatedRow as row = .ok image) : ∀ a ∈ as, (a.increment = true ∨
      ¬ t.definition.describe.Contended (list.map (·.1)) a.column) → t.Shows row image a := by
  intro a listed counts
  have pairs := Assignment.pairwise_of_forall₂ each ordered fun _ member =>
    List.mem_map_of_mem member
  have described : ∀ b ∈ as, t.definition.describe.hasColumn b.column = true := by
    intro b member
    obtain ⟨_, _, here⟩ := exists_of_forall₂ each.flip member
    exact here.known
  obtain ⟨before, after, rfl⟩ := List.append_of_mem listed
  refine cellAt_updatedRow_of_assigned apart ended ?known ?last
  case known =>
    obtain ⟨i, c, here, named⟩ := Definition.of_describe_hasColumn (described a listed)
    have position := Definition.position?_name apart here
    rw [named] at position
    simp [Definition.hasColumn, Definition.place?, position]
  case last =>
    have later : ∀ b ∈ after, b ∈ before ++ a :: after := fun b member =>
      List.mem_append_right before (List.mem_cons_of_mem a member)
    refine changes_of_described apart ?_ (described a listed) fun assigned => ?_
    · exact List.forall_mem_map.mpr fun b member => described b (later b member)
    · -- an assignment further on to the same column would be one that the column is contended by
      obtain ⟨b, member, same⟩ := List.mem_map.mp assigned
      have behind := (List.pairwise_cons.mp (List.pairwise_append.mp pairs).2.1).1 b member
      obtain ⟨plain, contended⟩ := behind same.symm
      rcases counts with added | free
      · cases plain.symm.trans added
      · exact free contended

theorem Change.takesEffect_updateWhere (table : String) {described : Table}
    {list : List (String × Cell)} {as : List (Assignment Cell)}
    {rows : Database → StoredTable → List StoredRow} {chosen : StoredTable → StoredRow → Bool}
    (read : Assignment.ofKeys described list = .ok as)
    (ordered : list.Pairwise fun first second => first.1 < second.1)
    (perm : ∀ db t, (rows db t).Perm (t.rows.filter (chosen t))) :
    (updateWhere table as rows).TakesEffect table described (list.map (·.1)) as chosen := by
  intro x t sound found same
  subst same
  have whole : t.Sound := sound.tables t (Database.of_table? found).1
  refine (updateWhere_ends sound found (perm x.database t)).mono ?_ fun _ _ kept => kept
  rintro n y ⟨counted, r, reached, _, images, shuffled⟩
  refine ⟨counted, r, _, reached, shuffled, fun row member held => ?_⟩
  exact StoredTable.shows_of_updatedRow whole.apart (Assignment.forall₂_of_ofKeys read) ordered
    (images row member held)

/-- Maps of the same names that differ at most in one value have entries alike. -/
theorem NameMap.alike {α : Type} {m other : NameMap α} {column : String}
    (names : other.keys = m.keys) (same : ∀ key, key ≠ column → other.get? key = m.get? key) :
    List.Forall₂ (fun first second => first.1 = second.1 ∧ (first.1 ≠ column → first.2 = second.2))
      m.entries other.entries := by
  have paired : List.Forall₂ (fun first second => first.1 = second.1) m.entries other.entries := by
    have equal : List.Forall₂ (· = ·) m.keys other.keys := names ▸ List.forall₂_refl _
    rwa [NameMap.keys, NameMap.keys, List.forall₂_map_left_iff, List.forall₂_map_right_iff] at equal
  refine forall₂_of_mem paired fun first here second there key => ⟨key, fun differ => ?_⟩
  have value := same first.1 differ
  rw [get?_eq_some_of_mem here, key, get?_eq_some_of_mem there] at value
  exact (Option.some.inj value).symm

/-! ## Updates -/

namespace Update

variable {s : Snapshot} {name : String} {set other : RowValues} {f : Filter} {u : Update}
  {t : Table} {column : String}

/-- An update of the same keys is accepted as well, with assignments of its own. -/
theorem compile_of_keys {as : List (Assignment Value)} (accepted : compile s name set f = .ok u)
    (found : s.resolve name = .ok t) (names : other.keys = set.keys)
    (read : Assignment.ofKeys t other.entries = .ok as) :
    compile s name other f = .ok { u with assignments := as } := by
  obtain ⟨t', resolved, rest⟩ := bind_eq_ok_iff.mp accepted
  cases found.symm.trans resolved
  obtain ⟨nonempty, rest⟩ := refuse_eq_ok_iff.mp rest
  obtain ⟨condition, passed, rest⟩ := bind_eq_ok_iff.mp rest
  obtain ⟨assignments, assigned, rest⟩ := bind_eq_ok_iff.mp rest
  cases rest
  have filled : ¬ other.isEmpty = true := by
    have lengths := congrArg List.length names
    simp only [NameMap.keys, List.length_map] at lengths
    simpa [NameMap.isEmpty, ← List.length_eq_zero_iff, lengths] using nonempty
  exact bind_eq_ok_iff.mpr ⟨t, found, refuse_eq_ok_iff.mpr ⟨filled,
    bind_eq_ok_iff.mpr ⟨condition, passed, bind_eq_ok_iff.mpr ⟨as, read, rfl⟩⟩⟩⟩

theorem takesEffect (read : Assignment.ofKeys t set.entries = .ok u.assignments) :
    (Change.update u).TakesEffect u.table t set.keys (u.assignments.map (·.map .ofValue))
      (·.satisfies u.condition) := by
  have effect := Change.takesEffect_updateWhere u.table
    (Assignment.ofKeys_map_of_eq_ok Cell.ofValue read) (List.pairwise_map.mpr set.ordered)
    fun db t =>
      t.perm_inUpdateOrder db u.condition u.assignments (t.rows.filter (t.satisfies u.condition))
  rw [List.map_map] at effect
  exact effect

/-- The value that replaces a contended column makes no difference. -/
theorem update_of_contended (accepted : compile s name set f = .ok u)
    (found : s.resolve name = .ok t) (read : Assignment.ofKeys t set.entries = .ok u.assignments)
    (contended : t.Contended set.keys column) (names : other.keys = set.keys)
    (same : ∀ key, key ≠ column → other.get? key = set.get? key) :
    ∃ v, compile s name other f = .ok v ∧ Change.update v = Change.update u := by
  obtain ⟨as, reads, overwritten⟩ := Assignment.exists_overwritten contended.known
    contended.unnamed read (NameMap.alike names same)
    (Assignment.incrementKey_follows set.ordered contended.incremented)
  refine ⟨_, compile_of_keys accepted found names reads, ?_⟩
  unfold Change.update
  dsimp only
  rw [Change.updateWhere_of_overwritten (overwritten.map Cell.ofValue)]
  simp only [StoredTable.inUpdateOrder_of_overwritten overwritten]

end Update

/-! ## Bulk updates -/

namespace BulkUpdate

variable {b : BulkUpdate} {t : Table} {set : List String} {column : String}

theorem takesEffect (read : Assignment.ofKeys t (set.map fun key => (key, key)) = .ok b.assignments)
    (ordered : set.Pairwise (· < ·)) (given : RowValues) :
    (Change.updateKeyed b given).TakesEffect b.table t set (b.assigning given)
      (b.addresses · given) := by
  have stored := Assignment.ofKeys_map_of_eq_ok (fun key => Cell.ofValue (valueAt given key)) read
  rw [List.map_map] at stored
  have effect := Change.takesEffect_updateWhere b.table stored
    (List.pairwise_map.mpr ordered) fun db t => t.perm_inUpdateOrder db (b.condition given)
      b.assignments (t.rows.filter (b.addresses t given))
  have keys : (set.map ((fun entry : String × Cell => (entry.1)) ∘
      (fun entry : String × String => (entry.1, Cell.ofValue (valueAt given entry.2))) ∘
        fun key => (key, key))) = set := List.map_id' set
  rw [List.map_map, keys] at effect
  exact effect

/-- Rows that agree in all values but that which replaces a contended column are assigned alike. -/
theorem overwritten_assigning
    (read : Assignment.ofKeys t (set.map fun key => (key, key)) = .ok b.assignments)
    (ordered : set.Pairwise (· < ·)) (contended : t.Contended set column) {given other : RowValues}
    (same : ∀ key, key ≠ column → valueAt other key = valueAt given key) :
    Assignment.Overwritten (b.assigning given) (b.assigning other) := by
  have reads (row : RowValues) := Assignment.ofKeys_map_of_eq_ok (valueAt row) read
  simp only [List.map_map] at reads
  have alike : List.Forall₂ (fun first second => first.1 = second.1 ∧
      (first.1 ≠ column → first.2 = second.2)) (set.map fun key => (key, valueAt given key))
      (set.map fun key => (key, valueAt other key)) := by
    rw [List.forall₂_map_left_iff, List.forall₂_map_right_iff, List.forall₂_same]
    exact fun key _ => ⟨rfl, fun differ => (same key differ).symm⟩
  have incremented : incrementKey column ∈
      (set.map fun key => (key, valueAt given key)).map (·.1) := by
    simpa [Function.comp_def] using contended.incremented
  obtain ⟨as, read', overwritten⟩ := Assignment.exists_overwritten contended.known
    contended.unnamed (reads given) alike
    (Assignment.incrementKey_follows (List.pairwise_map.mpr ordered) incremented)
  cases (reads other).symm.trans read'
  have assigned := overwritten.map Cell.ofValue
  simp only [List.map_map] at assigned
  exact assigned

/-- The value that replaces a contended column makes no difference. -/
theorem updateKeyed_of_contended
    (read : Assignment.ofKeys t (set.map fun key => (key, key)) = .ok b.assignments)
    (ordered : set.Pairwise (· < ·)) (free : column ∉ b.keys) (contended : t.Contended set column)
    {given other : RowValues} (same : ∀ key, key ≠ column → valueAt other key = valueAt given key) :
    Change.updateKeyed b other = Change.updateKeyed b given := by
  have keyed (key : String) (listed : key ∈ b.keys) : valueAt other key = valueAt given key :=
    same key fun here => free (here ▸ listed)
  have condition : b.condition other = b.condition given := by
    unfold condition
    refine congrArg Predicate.conj (List.map_congr_left fun key listed => ?_)
    rw [keyed key listed]
  have addressed (t : StoredTable) (row : StoredRow) :
      b.addresses t other row = b.addresses t given row := by
    unfold addresses
    refine congrArg (fun truths => (Truth.all truths).holds) ?_
    exact List.map_congr_left fun key listed => by rw [keyed key listed]
  have assigned := Change.updateWhere_of_overwritten
    (overwritten_assigning read ordered contended same) b.table
  have written (row : RowValues) : Change.updateKeyed b row = Change.updateWhere b.table
      (b.assigning row) fun db t => t.inUpdateOrder db (b.condition row) b.assignments
        (t.rows.filter (b.addresses t row)) := rfl
  rw [written, written, assigned, condition]
  simp only [funext (addressed _)]

end BulkUpdate

/-- Every entry of an accepted update is an assignment, and so is every entry of the rows of a bulk
update that is no key. A column is assigned twice exactly if it is contended. What the entries
assign takes effect in every chosen row of a table that is described as it is stored, except that
the value that replaces a contended column is lost: with any other value in its place the same
change is made. -/
theorem assignments_take_effect (s : Snapshot) (name : String) :
    (∀ set f u, Update.compile s name set f = .ok u → ∃ t, s.resolve name = .ok t ∧
      List.Forall₂ (Assignment.Of t) set.entries u.assignments ∧
      ((u.assignments.map (·.column)).Nodup ↔ ∀ column, ¬ t.Contended set.keys column) ∧
      (Change.update u).TakesEffect u.table t set.keys (u.assignments.map (·.map .ofValue))
        (·.satisfies u.condition) ∧
      ∀ column, t.Contended set.keys column → ∀ other, other.keys = set.keys →
        (∀ key, key ≠ column → other.get? key = set.get? key) →
          ∃ v, Update.compile s name other f = .ok v ∧ Change.update v = Change.update u) ∧
    ∀ rows keys size b, BulkUpdate.compile s name rows keys size = .ok (some b) → ∃ t set,
      s.resolve name = .ok t ∧
      (∀ row ∈ rows, row.keys.filter (fun key => !keys.contains key) = set) ∧
      List.Forall₂ (Assignment.Of t) (set.map fun key => (key, key)) b.assignments ∧
      ((b.assignments.map (·.column)).Nodup ↔ ∀ column, ¬ t.Contended set column) ∧
      (∀ given, (Change.updateKeyed b given).TakesEffect b.table t set (b.assigning given)
        (b.addresses · given)) ∧
      ∀ column, t.Contended set column → ∀ given other,
        (∀ key, key ≠ column → BulkUpdate.valueAt other key = BulkUpdate.valueAt given key) →
          Change.updateKeyed b other = Change.updateKeyed b given := by
  refine ⟨fun set f u accepted => ?single, fun rows keys size b accepted => ?bulk⟩
  case single =>
    obtain ⟨t, found, _, read, _⟩ := Update.of_compile accepted
    have each := Assignment.forall₂_of_ofKeys read
    exact ⟨t, found, each, Assignment.nodup_columns_iff each set.ordered, Update.takesEffect read,
      fun column contended other names same =>
        Update.update_of_contended accepted found read contended names same⟩
  case bulk =>
    obtain ⟨t, columns, found, _, own, _, even, _, read⟩ := BulkUpdate.of_compile accepted
    generalize listed : (columns.filter fun key => !keys.contains key) = set at read
    have shape : ∀ row ∈ rows, row.keys.filter (fun key => !keys.contains key) = set :=
      fun row member => even row member ▸ listed
    have ordered : set.Pairwise (· < ·) := by
      obtain ⟨row, member⟩ := List.exists_mem_of_ne_nil _ (BulkUpdate.nonempty_of_compile accepted)
      rw [← shape row member]
      exact (List.pairwise_map.mpr row.ordered).filter _
    have each := Assignment.forall₂_of_ofKeys read
    refine ⟨t, set, found, shape, each, ?once, BulkUpdate.takesEffect read ordered, ?lost⟩
    case once =>
      have names : (set.map fun key => (key, key)).map (·.1) = set := by
        rw [List.map_map]
        exact List.map_id' set
      have once := Assignment.nodup_columns_iff each (List.pairwise_map.mpr ordered)
      rwa [names] at once
    case lost =>
      intro column contended given other same
      refine BulkUpdate.updateKeyed_of_contended read ordered ?_ contended same
      have free := contended.replaced
      rw [← listed, ← own] at free
      simpa using (List.mem_filter.mp free).2

/-! ## Pages -/

def pages (rows : List StoredRow) : StoredTable where
  definition :=
    { name := "pages"
      columns :=
        [{ name := "id", declared := "INTEGER", primaryKey := true },
          { name := "views", declared := "INTEGER" }] }
  rows

def viewed (views : Int64) : StoredRow := ⟨1, [.integer 1, .integer views]⟩

def pageCatalog : Snapshot := .ofList [(pages []).definition.describe]

def firstPage : Filter := .entries [("id", .scalar (.int 1))]

/-- A number of views, and an increment that adds nothing. -/
def resetting (views : Int32) : RowValues where
  entries := [("views", .int views), ("views__inc", .int 0)]
  ordered := List.pairwise_pair.mpr (lt_incrementKey "views")

def resettingUpdate (views : Int32) : Update where
  table := "pages"
  assignments := [⟨"views", false, .int views⟩, ⟨"views", true, .int 0⟩]
  condition := .condition ⟨"pages", "id", .eq, .value (.int 1)⟩

theorem assignments_take_effect_pages :
    Update.compile pageCatalog "pages" (resetting 5) firstPage = .ok (resettingUpdate 5) ∧
    Change.update (resettingUpdate 7) = Change.update (resettingUpdate 5) ∧
    ∃ y r image, (Change.update (resettingUpdate 5)).outcome
        { database := ⟨[pages [viewed 10]], []⟩ } = (.ok 1, y) ∧
      y.database = ⟨[pages r], []⟩ ∧ r.Perm [image] ∧
      (pages [viewed 10]).Shows (viewed 10) image ⟨"views", true, .integer 0⟩ := by
  have compiled : Update.compile pageCatalog "pages" (resetting 5) firstPage =
      .ok (resettingUpdate 5) := rfl
  obtain ⟨t, found, _, _, effect, lost⟩ :=
    (assignments_take_effect pageCatalog "pages").1 _ _ _ compiled
  cases found
  refine ⟨compiled, ?same, ?shown⟩
  case same =>
    have contended : (pages []).definition.describe.Contended (resetting 5).keys "views" :=
      ⟨by decide, by decide, by decide, by decide⟩
    have elsewhere (key : String) (differ : key ≠ "views") :
        (resetting 7).get? key = (resetting 5).get? key := by
      simp [NameMap.get?, resetting, NameMap.find?, differ.symm]
    obtain ⟨v, again, same⟩ := lost "views" contended (resetting 7) rfl elsewhere
    cases (show Update.compile pageCatalog "pages" (resetting 7) firstPage =
      .ok (resettingUpdate 7) from rfl).symm.trans again
    exact same
  case shown =>
    have ran : ((Change.update (resettingUpdate 5)).outcome
        { database := ⟨[pages [viewed 10]], []⟩ }).1 = .ok 1 := by
      decide +kernel
    have sound : (⟨[pages [viewed 10]], []⟩ : Database).Sound := by decide
    have ends := effect { database := ⟨[pages [viewed 10]], []⟩ } (pages [viewed 10]) sound rfl rfl
    obtain ⟨_, r, image, reached, perm, shows⟩ := ends.holds_ok (Prod.ext ran rfl)
    have chosen : (pages [viewed 10]).satisfies (resettingUpdate 5).condition (viewed 10) = true :=
      by decide +kernel
    refine ⟨_, r, image (viewed 10), Prod.ext ran rfl, reached, ?_, ?_⟩
    · have rows : (pages [viewed 10]).rows = [viewed 10] := rfl
      simpa [rows, chosen] using perm
    · refine shows _ List.mem_cons_self chosen _ ?_ (.inl rfl)
      exact List.mem_cons_of_mem _ List.mem_cons_self

/-- The number of views is not set where the key that increments it stands beside it. -/
theorem resetting_is_lost_pages :
    Update.compile pageCatalog "pages" (resetting 5) firstPage = .ok (resettingUpdate 5) ∧
    ¬ ((resettingUpdate 5).assignments.map (·.column)).Nodup ∧
    (Change.update (resettingUpdate 5)).outcome { database := ⟨[pages [viewed 10]], []⟩ } =
      (.ok 1, { database := ⟨[pages [viewed 10]], []⟩ }) :=
  ⟨rfl, by decide, by decide +kernel⟩

end TableAccess
