import Mathlib.Data.List.Nodup
import TableAccess.Proofs.Attempt
import TableAccess.Proofs.Store.Rows
import TableAccess.Store.Route.Writing

/-!
# Tables under statements

What a statement that succeeds has made of the table that it changes: the rows that it was for are
replaced by their images or gone, each once, and all other rows are there still. No other table and
no view is touched. The rows of a table are counted as a whole here; in which order they stand
follows from their numbers or keys.
-/

namespace TableAccess

open Attempt (Ends)

/-! ## Databases -/

structure Database.Sound (db : Database) : Prop where
  apart : (db.tables.map fun t => Text.lowercase t.name).Nodup
  tables : ∀ t ∈ db.tables, t.Sound

theorem Database.sound_iff {db : Database} : db.Sound ↔
    (db.tables.map fun t => Text.lowercase t.name).Nodup ∧ ∀ t ∈ db.tables, t.Sound :=
  ⟨fun sound => ⟨sound.apart, sound.tables⟩, fun ⟨apart, tables⟩ => ⟨apart, tables⟩⟩

instance (db : Database) : Decidable db.Sound := decidable_of_iff _ Database.sound_iff.symm

namespace Database

variable {db : Database} {name : String} {t changed : StoredTable}

theorem of_table? (found : db.table? name = some t) :
    t ∈ db.tables ∧ Text.same t.name name = true := by
  unfold table? at found
  have named := List.find?_some found
  exact ⟨List.mem_of_find?_eq_some found, named⟩

theorem target_eq_ok_iff : db.target name = .ok t ↔ db.table? name = some t := by
  unfold target
  cases found : db.table? name with
  | some table => simp
  | none =>
      refine iff_of_false (fun ended => ?_) nofun
      dsimp only at ended
      split at ended
      · obtain ⟨_, _, rest⟩ := bind_eq_ok_iff.mp ended
        cases rest
      · cases ended

/-- In a sound database a table is found by its name. -/
theorem Sound.eq_of_name (sound : db.Sound) (here : t ∈ db.tables) (there : changed ∈ db.tables)
    (same : t.name = changed.name) : t = changed :=
  List.inj_on_of_nodup_map sound.apart here there (congrArg Text.lowercase same)

theorem Sound.replaceTable_self (sound : db.Sound) (member : t ∈ db.tables) :
    db.replaceTable t = db := by
  have kept : db.tables.map (fun old => if old.name == t.name then t else old) = db.tables := by
    refine (List.map_congr_left fun old listed => ?_).trans (List.map_id _)
    split
    · rename_i same
      exact (sound.eq_of_name listed member (eq_of_beq same)).symm
    · rfl
  unfold replaceTable
  rw [kept]

/-- Of several changes of the rows of a table the last one counts. -/
theorem replaceTable_replaceTable (rows later : List StoredRow) :
    (db.replaceTable { t with rows }).replaceTable { t with rows := later } =
      db.replaceTable { t with rows := later } := by
  unfold replaceTable
  simp only [List.map_map]
  congr 1
  refine List.map_congr_left fun old _ => ?_
  by_cases named : old.definition.name = t.definition.name <;> simp [named, StoredTable.name]

theorem names_replaceTable (db : Database) (t : StoredTable) :
    (db.replaceTable t).tables.map (·.name) = db.tables.map (·.name) := by
  unfold replaceTable
  rw [List.map_map]
  refine List.map_congr_left fun old _ => ?_
  by_cases named : old.name = t.name <;> simp [named]

/-- A table whose rows were replaced is found as such. -/
theorem table?_replaceTable (found : db.table? name = some t) (rows : List StoredRow) :
    (db.replaceTable { t with rows }).table? name = some { t with rows } := by
  unfold table? replaceTable at *
  rw [List.find?_map]
  have step : ((fun t => Text.same t.name name) ∘ fun old =>
      if old.name == ({ t with rows } : StoredTable).name then { t with rows } else old) =
        fun t => Text.same t.name name := by
    funext old
    by_cases named : old.name = ({ t with rows } : StoredTable).name <;> simp [named]
  rw [step, found]
  simp [StoredTable.name]

theorem Sound.replaceTable (sound : db.Sound) (whole : t.Sound) : (db.replaceTable t).Sound := by
  constructor
  · have names := congrArg (List.map Text.lowercase) (names_replaceTable db t)
    rw [List.map_map, List.map_map] at names
    exact names ▸ sound.apart
  · intro table listed
    obtain ⟨old, member, rfl⟩ := List.mem_map.mp listed
    split
    · exact whole
    · exact sound.tables old member

end Database

/-! ## Putting rows in place -/

namespace StoredTable

variable {t : StoredTable} {row changed : StoredRow} {rows others images : List StoredRow}
  {as : List (Assignment Cell)} {p : StoredRow → Bool}

theorem perm_insertBy (precedes : StoredRow → StoredRow → Bool) (row : StoredRow)
    (rows : List StoredRow) : (insertBy precedes row rows).Perm (row :: rows) := by
  induction rows with
  | nil => exact .refl _
  | cons other rest ih =>
      unfold insertBy
      split
      · exact .refl _
      · exact (ih.cons other).trans (.swap row other rest)

theorem perm_placed (t : StoredTable) (row : StoredRow) (others : List StoredRow) :
    (t.placed row others).Perm (row :: others) :=
  perm_insertBy _ row others

/-- Taking a row out by its number leaves the others. -/
theorem Sound.perm_others (sound : t.Sound) (perm : t.rows.Perm (row :: rows)) :
    (t.rows.filter fun other => other.number != row.number).Perm rows := by
  have distinct := (perm.map (·.number)).nodup_iff.mp sound.distinct
  rw [List.map_cons, List.nodup_cons] at distinct
  have kept : (row :: rows).filter (fun other => other.number != row.number) = rows := by
    rw [List.filter_cons_of_neg (by simp), List.filter_eq_self]
    intro other member
    have differ : other.number ≠ row.number := fun same =>
      distinct.1 (same ▸ List.mem_map_of_mem member)
    simpa using differ
  exact kept ▸ perm.filter _

theorem number_of_checkRow (checked : t.checkRow row others = .ok ()) :
    row.number ∉ others.map (·.number) := by
  intro taken
  obtain ⟨other, member, same⟩ := List.mem_map.mp taken
  have collides : numberTaken row others = true :=
    List.any_eq_true.mpr ⟨other, member, by simp [same]⟩
  unfold checkRow at checked
  split at checked
  · cases checked
  · simp [collision?, collides] at checked

/-- A table stays sound when a row that fits and passes its checks is put in place. -/
theorem Sound.placed (sound : t.Sound) (fits : row.Fits t.definition)
    (subset : others.Sublist t.rows) (checked : t.checkRow row others = .ok ()) :
    ({ t with rows := t.placed row others } : StoredTable).Sound := by
  have perm := t.perm_placed row others
  refine ⟨sound.apart, ?_, fun other member => ?_⟩
  · refine (perm.map (·.number)).nodup_iff.mpr (List.nodup_cons.mpr ⟨?_, ?_⟩)
    · exact number_of_checkRow checked
    · exact sound.distinct.sublist (subset.map _)
  · rcases List.mem_cons.mp (perm.mem_iff.mp member) with rfl | old
    · exact fits
    · exact sound.fits other (subset.subset old)

theorem Sound.filter (sound : t.Sound) (p : StoredRow → Bool) :
    ({ t with rows := t.rows.filter p } : StoredTable).Sound :=
  ⟨sound.apart, sound.distinct.sublist (List.filter_sublist.map _),
    fun row member => sound.fits row (List.mem_filter.mp member).1⟩

/-- A row as assignments make it; one that they cannot be made of stays as it is. -/
def revised (t : StoredTable) (as : List (Assignment Cell)) (row : StoredRow) : StoredRow :=
  match t.updatedRow as row with
  | .ok image => image
  | .error _ => row

theorem revised_eq (ended : t.updatedRow as row = .ok changed) : t.revised as row = changed := by
  simp only [revised, ended]

theorem perm_inUpdateOrder {α : Type} (db : Database) (t : StoredTable) (condition : Predicate)
    (assignments : List (Assignment α)) (rows : List StoredRow) :
    (t.inUpdateOrder db condition assignments rows).Perm rows := by
  unfold inUpdateOrder
  split
  · exact List.mergeSort_perm _ _
  · exact .refl _

/-- The images of chosen rows, and the rows that were not chosen, are all rows after the choice. -/
theorem perm_chosen (chosen : rows.Perm (t.rows.filter p)) (image : StoredRow → StoredRow) :
    (rows.map image ++ t.rows.filter fun row => !p row).Perm
      (t.rows.map fun row => if p row then image row else row) := by
  have whole := (List.filter_append_perm p t.rows).map fun row => if p row then image row else row
  refine List.Perm.trans ?_ whole
  rw [List.map_append]
  refine .append ?_ ?_
  · have each : (t.rows.filter p).map (fun row => if p row then image row else row) =
        (t.rows.filter p).map image :=
      List.map_congr_left fun row member => if_pos (List.mem_filter.mp member).2
    exact each ▸ chosen.map image
  · have each : (t.rows.filter fun row => !p row).map (fun row => if p row then image row else row) =
        t.rows.filter fun row => !p row := by
      refine (List.map_congr_left fun row member => ?_).trans (List.map_id _)
      have unchosen := (List.mem_filter.mp member).2
      simp only [Bool.not_eq_true'] at unchosen
      simp [unchosen]
    rw [each]

end StoredTable

/-! ## Statements -/

namespace Change

variable {x : Content} {t : StoredTable} {table : String} {as : List (Assignment Cell)}

/-- Rows that are updated one after the other are replaced by their images. -/
theorem updateRows_ends (c : Concern) (rows : List StoredRow) (immediate : Int)
    {others : List StoredRow} (sound : x.database.Sound) (found : x.database.table? table = some t)
    (perm : t.rows.Perm (rows ++ others)) : (updateRows c as table immediate rows).Ends x
      (fun _ y => ∃ r, y.database = x.database.replaceTable { t with rows := r } ∧
        ({ t with rows := r } : StoredTable).Sound ∧
        (∀ row ∈ rows, t.updatedRow as row = .ok (t.revised as row)) ∧
        r.Perm (rows.map (t.revised as) ++ others))
      fun _ _ => True := by
  induction rows generalizing x t immediate others with
  | nil =>
      have member := (Database.of_table? found).1
      exact .pure ⟨t.rows, (sound.replaceTable_self member).symm, sound.tables t member,
        List.forall_mem_nil _, perm⟩
  | cons row rest ih =>
      have whole : t.Sound := sound.tables t (Database.of_table? found).1
      unfold updateRows
      refine (Ends.looking fun content : Content => content.database.target table).bind ?_
        fun _ _ _ => trivial
      rintro _ _ ⟨rfl, here⟩
      cases found.symm.trans (Database.target_eq_ok_iff.mp here)
      refine (Ends.ofExcept _).bind ?_ fun _ _ _ => trivial
      rintro changed _ ⟨rfl, updated⟩
      refine (Ends.ofExcept _).bind ?_ fun _ _ _ => trivial
      rintro _ _ ⟨rfl, checked⟩
      refine .after rfl (.after rfl (.after rfl ?_))
      have image : t.revised as row = changed := StoredTable.revised_eq updated
      have placed := whole.placed (StoredTable.fits_of_updatedRow updated) List.filter_sublist checked
      have taken := whole.perm_others (perm : t.rows.Perm (row :: (rest ++ others)))
      have here := Database.table?_replaceTable found
        (t.placed changed (t.rows.filter fun other => other.number != row.number))
      -- the row that is done joins those that are left alone
      have later : (t.placed changed (t.rows.filter fun other => other.number != row.number)).Perm
          (rest ++ changed :: others) :=
        (t.perm_placed changed _).trans ((taken.cons changed).trans List.perm_middle.symm)
      refine (ih _ (sound.replaceTable placed) here later).mono ?_ fun _ _ _ => trivial
      rintro _ y ⟨r, reached, kept, each, images⟩
      refine ⟨r, ?_, kept, ?_, ?_⟩
      · rw [reached]
        exact Database.replaceTable_replaceTable _ r
      · refine List.forall_mem_cons.mpr ⟨?_, each⟩
        rw [image, updated]
      · rw [List.map_cons, image]
        exact images.trans List.perm_middle

/-- A statement that ends as a whole either succeeds as its steps do or leaves what was there. -/
theorem whole_ends {α : Type} {change : Change α} {value : α → Content → Prop}
    (ends : change.Ends x value fun _ _ => True) :
    (whole change).Ends x value fun _ y => y = x := by
  rcases ends.cases with ⟨v, y, ended, holds⟩ | ⟨fault, y, ended, _⟩
  · have done : (whole change).outcome x = (.ok v, y) := by
      unfold whole
      rw [Attempt.outcome_of, ended]
    exact .of_eq_ok done holds
  · have undone : (whole change).outcome x = (.error fault, x) := by
      unfold whole
      rw [Attempt.outcome_of, ended]
    exact .of_eq_error undone rfl

theorem settled_ends (immediate : Int) : (settled immediate).Ends x (fun _ y => y = x)
    fun _ _ => True := by
  unfold settled
  split
  · exact .throw trivial
  · exact .pure rfl

/-- An update replaces the rows that are chosen by their images. -/
theorem updateWhere_ends {chosen : Database → StoredTable → List StoredRow} {p : StoredRow → Bool}
    (sound : x.database.Sound) (found : x.database.table? table = some t)
    (perm : (chosen x.database t).Perm (t.rows.filter p)) :
    (updateWhere table as chosen).Ends x
      (fun n y => n = (t.rows.filter p).length ∧
        ∃ r, y.database = x.database.replaceTable { t with rows := r } ∧
          ({ t with rows := r } : StoredTable).Sound ∧
          (∀ row ∈ t.rows, p row = true → t.updatedRow as row = .ok (t.revised as row)) ∧
          r.Perm (t.rows.map fun row => if p row then t.revised as row else row))
      fun _ y => y = x := by
  refine whole_ends ?_
  refine (Ends.looking fun content : Content => content.database.target table).bind ?_
    fun _ _ _ => trivial
  rintro _ _ ⟨rfl, here⟩
  cases found.symm.trans (Database.target_eq_ok_iff.mp here)
  refine .after rfl ?_
  have split : t.rows.Perm (chosen _ t ++ t.rows.filter fun row => !p row) :=
    (List.filter_append_perm p t.rows).symm.trans (perm.symm.append_right _)
  refine (updateRows_ends _ _ _ sound found split).bind ?_ fun _ _ _ => trivial
  rintro immediate y ⟨r, reached, whole, each, images⟩
  refine (settled_ends immediate).bind ?_ fun _ _ _ => trivial
  rintro _ _ rfl
  refine .pure ⟨perm.length_eq, r, reached, whole, fun row member held => ?_, ?_⟩
  · exact each row (perm.mem_iff.mpr (List.mem_filter.mpr ⟨member, held⟩))
  · exact images.trans (StoredTable.perm_chosen perm _)

/-- Rows that are deleted one after the other are gone. -/
theorem deleteRows_ends (c : Concern) (rows : List StoredRow) (immediate : Int)
    (sound : x.database.Sound) (found : x.database.table? table = some t) :
    (deleteRows c table immediate rows).Ends x
      (fun _ y => y.database = x.database.replaceTable
        { t with rows := t.rows.filter fun row => rows.all fun gone => row.number != gone.number })
      fun _ _ => True := by
  induction rows generalizing x t immediate with
  | nil =>
      have kept : t.rows.filter (fun row =>
          ([] : List StoredRow).all fun gone => row.number != gone.number) = t.rows := by simp
      refine .pure ?_
      rw [kept]
      exact (sound.replaceTable_self (Database.of_table? found).1).symm
  | cons row rest ih =>
      have whole : t.Sound := sound.tables t (Database.of_table? found).1
      unfold deleteRows
      refine (Ends.looking fun content : Content => content.database.target table).bind ?_
        fun _ _ _ => trivial
      rintro _ _ ⟨rfl, here⟩
      cases found.symm.trans (Database.target_eq_ok_iff.mp here)
      refine .after rfl (.after rfl (.after rfl ?_))
      have later := sound.replaceTable (whole.filter fun other => other.number != row.number)
      have here := Database.table?_replaceTable found
        (t.rows.filter fun other => other.number != row.number)
      refine (ih _ later here).mono ?_ fun _ _ _ => trivial
      intro _ y reached
      rw [reached]
      dsimp only
      rw [Database.replaceTable_replaceTable, List.filter_filter]
      simp only [List.all_cons, Bool.and_comm]

/-- A deletion takes the rows out that are chosen. -/
theorem deleteWhere_ends {chosen : StoredTable → StoredRow → Bool} (sound : x.database.Sound)
    (found : x.database.table? table = some t) : (deleteWhere table chosen).Ends x
      (fun n y => n = (t.rows.filter (chosen t)).length ∧
        y.database = x.database.replaceTable
          { t with rows := t.rows.filter fun row => !chosen t row })
      fun _ y => y = x := by
  have whole : t.Sound := sound.tables t (Database.of_table? found).1
  refine whole_ends ?_
  refine (Ends.looking fun content : Content => content.database.target table).bind ?_
    fun _ _ _ => trivial
  rintro _ _ ⟨rfl, here⟩
  cases found.symm.trans (Database.target_eq_ok_iff.mp here)
  refine .after rfl ?_
  refine (deleteRows_ends _ _ _ sound found).bind ?_ fun _ _ _ => trivial
  intro immediate y reached
  refine (settled_ends immediate).bind ?_ fun _ _ _ => trivial
  rintro _ _ rfl
  refine .pure ⟨rfl, reached.trans ?_⟩
  -- a row is gone by its number exactly if it was chosen, since no other row has the number
  congr 2
  refine List.filter_congr fun row member => ?_
  rw [Bool.eq_iff_iff, List.all_eq_true]
  constructor
  · intro apart
    rw [Bool.not_eq_true']
    by_contra held
    have listed := List.mem_filter.mpr ⟨member, eq_true_of_ne_false held⟩
    simpa using apart row listed
  · intro kept gone listed
    obtain ⟨there, held⟩ := List.mem_filter.mp listed
    have differ : row.number ≠ gone.number := fun same => by
      cases List.inj_on_of_nodup_map whole.distinct member there same
      simp [held] at kept
    simpa using differ

end Change

end TableAccess
