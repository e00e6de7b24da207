import TableAccess.Proofs.Store.Tables
import TableAccess.Store.Request

/-!
# Changes of sound databases

Whatever a statement makes of a sound database is sound again: new rows fit their table, rows keep
different numbers, and a new table has a name and columns of its own. A statement that fails halfway
leaves a sound database too.
-/

namespace TableAccess

open Attempt (Ends Keeps)

def Content.Sound (x : Content) : Prop := x.database.Sound

/-- A new row fits its table. -/
theorem StoredTable.fits_newRow {t : StoredTable} {given : List (String × Cell)} {row : StoredRow}
    (made : t.newRow given = .ok row) : row.Fits t.definition := by
  unfold newRow at made
  dsimp only at made
  split at made
  · cases made
    exact fits_numbered (by simp)
  · obtain ⟨number, _, rest⟩ := bind_eq_ok_iff.mp made
    cases rest
    exact fits_numbered (by simp)

/-- What a new row makes of a database: it passes the checks of its table, and is put in place
there. -/
def Database.Gains (db : Database) (table : String) (given : List (String × Cell))
    (new : StoredRow) (after : Database) : Prop :=
  ∃ t, db.table? table = some t ∧ t.newRow given = .ok new ∧ t.checkRow new t.rows = .ok () ∧
    after = db.replaceTable { t with rows := t.placed new t.rows }

theorem Database.Sound.gains {db after : Database} {table : String} {given : List (String × Cell)}
    {new : StoredRow} (sound : db.Sound) (gains : db.Gains table given new after) :
    after.Sound := by
  obtain ⟨t, found, made, checked, rfl⟩ := gains
  have whole : t.Sound := sound.tables t (of_table? found).1
  exact sound.replaceTable (whole.placed (StoredTable.fits_newRow made) (.refl _) checked)

namespace Change

variable {α : Type}

/-- An insert puts its row in place last, when nothing can fail any more. -/
theorem insertRow_ends (table : String) (given : List (String × Cell)) (x : Content) :
    (insertRow table given).Ends x
      (fun number y => ∃ new, new.number = number ∧ x.database.Gains table given new y.database)
      fun _ y => y.database = x.database := by
  unfold insertRow
  refine (Ends.looking fun content : Content => content.database.target table).bind ?_
    fun _ _ same => congrArg Content.database same.1
  rintro t _ ⟨rfl, found⟩
  refine (Ends.ofExcept _).bind ?_ fun _ _ same => congrArg Content.database same.1
  rintro new _ ⟨rfl, made⟩
  refine (Ends.ofExcept _).bind ?_ fun _ _ same => congrArg Content.database same.1
  rintro _ x ⟨rfl, checked⟩
  -- the obligations that are counted do not touch the database
  refine .after rfl (Ends.bind (?counted : Attempt.Ends _ _ (fun _ y => y.database = x.database)
    fun _ y => y.database = x.database) ?_ fun _ _ same => same)
  case counted => exact .onPart ((Ends.somehow _ _).mono (fun _ _ _ => rfl) fun _ _ _ => rfl)
  intro _ y same
  refine .after rfl (.pure ⟨new, rfl, t, Database.target_eq_ok_iff.mp found, made, checked, ?_⟩)
  exact congrArg (Database.replaceTable · _) same

theorem keeps_insertRow (table : String) (given : List (String × Cell)) :
    (insertRow table given).Keeps Content.Sound := by
  refine .of_ends fun x sound => (insertRow_ends table given x).mono ?_ ?_
  · rintro _ y ⟨new, _, gains⟩
    exact Database.Sound.gains sound gains
  · rintro _ y same
    exact (same ▸ sound : y.database.Sound)

/-- A statement that does not find its table changes nothing. -/
theorem whole_missing {table : String} {next : StoredTable → Change α} {x : Content} {fault : Fault}
    (missing : x.database.target table = .error fault) :
    (whole (target table >>= next)).outcome x = (.error fault, x) := by
  unfold whole
  rw [Attempt.outcome_of, Attempt.outcome_bind]
  simp [target, missing]

theorem keeps_updateWhere (table : String) (as : List (Assignment Cell))
    {chosen : Database → StoredTable → List StoredRow} {p : StoredTable → StoredRow → Bool}
    (perm : ∀ db t, (chosen db t).Perm (t.rows.filter (p t))) :
    (updateWhere table as chosen).Keeps Content.Sound := by
  refine .of_ends fun x sound => ?_
  cases target : x.database.target table with
  | error fault => exact .of_eq_error (whole_missing target) sound
  | ok t =>
      refine (updateWhere_ends sound (Database.target_eq_ok_iff.mp target)
        (perm x.database t)).mono ?_ ?_
      · rintro _ y ⟨_, r, reached, whole, _⟩
        exact (reached ▸ Database.Sound.replaceTable sound whole : y.database.Sound)
      · rintro _ y rfl
        exact sound

theorem keeps_deleteWhere (table : String) (chosen : StoredTable → StoredRow → Bool) :
    (deleteWhere table chosen).Keeps Content.Sound := by
  refine .of_ends fun x sound => ?_
  cases target : x.database.target table with
  | error fault => exact .of_eq_error (whole_missing target) sound
  | ok t =>
      have found := Database.target_eq_ok_iff.mp target
      have whole : t.Sound := sound.tables t (Database.of_table? found).1
      refine (deleteWhere_ends sound found).mono ?_ ?_
      · rintro _ y ⟨_, reached⟩
        exact (reached ▸ Database.Sound.replaceTable sound (whole.filter _) : y.database.Sound)
      · rintro _ y rfl
        exact sound

theorem keeps_insert (i : Insert) (row : List Value) : (insert i row).Keeps Content.Sound :=
  keeps_insertRow _ _

theorem keeps_update (u : Update) : (update u).Keeps Content.Sound :=
  keeps_updateWhere _ _ fun db t => t.perm_inUpdateOrder db _ _ _

theorem keeps_delete (d : Delete) : (delete d).Keeps Content.Sound :=
  keeps_deleteWhere _ _

theorem keeps_updateKeyed (b : BulkUpdate) (row : RowValues) :
    (updateKeyed b row).Keeps Content.Sound :=
  keeps_updateWhere _ _ fun db t => t.perm_inUpdateOrder db _ _ _

end Change

/-! ## New tables -/

namespace Definition

/-- Columns among which no name is repeated have different names. -/
theorem apart_of_search {earlier : List String} {columns : List StoredColumn}
    (unrepeated : repeatedColumn?.search earlier columns = none) :
    (columns.Pairwise fun first second => Text.same first.name second.name = false) ∧
      ∀ c ∈ columns, ∀ name ∈ earlier, Text.same c.name name = false := by
  induction columns generalizing earlier with
  | nil => exact ⟨.nil, nofun⟩
  | cons c rest ih =>
      unfold repeatedColumn?.search at unrepeated
      split at unrepeated
      · cases unrepeated
      · rename_i fresh
        obtain ⟨apart, others⟩ := ih unrepeated
        have here : ∀ name ∈ earlier, Text.same c.name name = false := by
          simpa using fresh
        constructor
        · refine List.pairwise_cons.mpr ⟨fun other member => ?_, apart⟩
          rw [Text.same_comm]
          exact others other member c.name List.mem_cons_self
        · refine List.forall_mem_cons.mpr ⟨here, fun other member name listed => ?_⟩
          exact others other member name (List.mem_cons_of_mem _ listed)

theorem legibleColumns_eq {columns : List StoredColumn}
    (legible : columns.all (·.isLegible) = true) : legibleColumns columns = columns := by
  induction columns with
  | nil => rfl
  | cons c rest ih =>
      simp only [List.all_cons, Bool.and_eq_true, StoredColumn.isLegible, Bool.not_eq_true',
        Bool.or_eq_false_iff] at legible
      obtain ⟨⟨named, read⟩, later⟩ := legible
      rw [legibleColumns, named, read]
      simp [ih later]

end Definition

namespace Database

/-- The columns of a table that is created have different names. -/
theorem apart_of_checkColumns {d : Definition} (checked : checkColumns d = .ok ()) : d.Apart := by
  unfold checkColumns at checked
  split at checked
  · cases checked
  · rename_i unrepeated
    obtain ⟨_, _, rest⟩ := bind_eq_ok_iff.mp checked
    by_cases legible : d.columns.all (·.isLegible) = true
    · have whole := (Definition.apart_of_search unrepeated).1
      rwa [Definition.legibleColumns_eq legible] at whole
    · rw [if_neg legible] at rest
      cases rest

/-- A table that is created is put behind the others, under a name that none of them has. -/
theorem of_create_table {db created : Database} {d : Definition}
    (done : db.create (.table d) = .ok created) :
    db.table? d.name = none ∧ d.Apart ∧
      created = { db with tables := db.tables ++ [⟨d, []⟩] } := by
  have steps (ended : (do
      db.checkName (.table d)
      checkColumns d
      pure { db with tables := db.tables ++ [⟨d, []⟩] } : Except Fault Database) = .ok created) :
      db.checkName (.table d) = .ok () ∧ checkColumns d = .ok () ∧
        created = { db with tables := db.tables ++ [⟨d, []⟩] } := by
    obtain ⟨_, named, rest⟩ := bind_eq_ok_iff.mp ended
    obtain ⟨_, checked, rest⟩ := bind_eq_ok_iff.mp rest
    cases rest
    exact ⟨named, checked, rfl⟩
  have parts : db.checkName (.table d) = .ok () ∧ checkColumns d = .ok () ∧
      created = { db with tables := db.tables ++ [⟨d, []⟩] } := by
    unfold create at done
    dsimp only at done
    split at done
    · obtain ⟨_, _, rest⟩ := bind_eq_ok_iff.mp done
      exact steps rest
    · exact steps done
  obtain ⟨named, checked, same⟩ := parts
  refine ⟨?_, apart_of_checkColumns checked, same⟩
  unfold checkName at named
  dsimp only at named
  split at named
  · cases named
  · split at named
    · cases named
    · rename_i untaken
      simpa [NewTable.name] using untaken

/-- Creating a table or a view keeps a database sound. -/
theorem Sound.create {db created : Database} {new : NewTable} (sound : db.Sound)
    (done : db.create new = .ok created) : created.Sound := by
  cases new with
  | view v =>
      obtain ⟨_, _, rest⟩ := bind_eq_ok_iff.mp done
      obtain ⟨_, _, rest⟩ := bind_eq_ok_iff.mp rest
      cases rest
      exact ⟨sound.apart, sound.tables⟩
  | table d =>
      obtain ⟨fresh, apart, rfl⟩ := of_create_table done
      constructor
      · rw [List.map_append, List.nodup_append]
        refine ⟨sound.apart, List.nodup_singleton _, fun name listed other added same => ?_⟩
        obtain ⟨t, member, rfl⟩ := List.mem_map.mp listed
        obtain rfl := List.mem_singleton.mp added
        have differ := List.find?_eq_none.mp fresh t member
        exact differ (Text.same_iff.mpr same)
      · refine List.forall_mem_append.mpr ⟨sound.tables, List.forall_mem_singleton.mpr ?_⟩
        exact ⟨apart, .nil, nofun⟩

end Database

theorem Change.keeps_create (new : NewTable) : (create new).Keeps Content.Sound := by
  intro x sound
  unfold create
  rw [Attempt.outcome_of]
  split
  · rename_i created done
    exact Database.Sound.create sound done
  · exact sound

end TableAccess
