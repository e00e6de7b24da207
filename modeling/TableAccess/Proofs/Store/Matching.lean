import TableAccess.Proofs.Outcome
import TableAccess.Store.Statement

/-!
# Matching changes

What is known of a change that was matched against a database, and of the faults if a bulk update
was not: of these only a statement that breaks off tells a place in its text.
-/

namespace TableAccess

/-- A result whose fault, if there is one, is told without a place. -/
def FailsPlainly {α : Type} (result : Except Fault α) : Prop :=
  ∀ fault, result = .error fault → fault.bare = fault

namespace FailsPlainly

variable {α β : Type}

theorem ok (a : α) : FailsPlainly (.ok a : Except Fault α) :=
  fun _ failed => nomatch failed

theorem error {fault : Fault} (plain : fault.bare = fault) :
    FailsPlainly (.error fault : Except Fault α) := by
  rintro _ ⟨⟩
  exact plain

theorem bind {first : Except Fault α} {next : α → Except Fault β} (plain : FailsPlainly first)
    (rest : ∀ a, FailsPlainly (next a)) : FailsPlainly (first >>= next) := by
  intro fault failed
  cases first with
  | ok a => exact rest a fault failed
  | error e =>
      cases failed
      exact plain _ rfl

theorem forM {list : List α} {check : α → Except Fault Unit} (each : ∀ a, FailsPlainly (check a)) :
    FailsPlainly (list.forM check) := by
  induction list with
  | nil => exact .ok ()
  | cons head rest ih => exact (each head).bind fun _ => ih

end FailsPlainly

namespace Database

variable (db : Database)

theorem failsPlainly_viewed (v : View) (passed : List String) (steps : Nat) :
    FailsPlainly (db.viewed v passed steps) := by
  induction steps generalizing v passed with
  | zero => exact .error rfl
  | succ steps ih =>
      unfold viewed
      split
      · exact .error rfl
      · split
        · exact .ok _
        · split
          · exact ih _ _
          · exact .error rfl

theorem failsPlainly_target (name : String) : FailsPlainly (db.target name) := by
  unfold target
  split
  · exact .ok _
  · split
    · exact (db.failsPlainly_viewed _ _ _).bind fun _ => .error rfl
    · exact .error rfl

theorem failsPlainly_keyIn (l : Link) (parent : StoredTable) : FailsPlainly (l.keyIn parent) := by
  unfold Link.keyIn
  split
  · exact .ok _
  · exact .error rfl

theorem failsPlainly_parentOf (l : Link) : FailsPlainly (db.parentOf l) := by
  unfold parentOf
  split
  · exact (failsPlainly_keyIn l _).bind fun _ => .ok _
  · split
    · exact .error rfl
    · exact .error rfl

theorem failsPlainly_checkAll (c : Concern) (t : StoredTable) :
    FailsPlainly (c.checkAll db t) := by
  have keys (links : List Link) :
      FailsPlainly (links.forM fun l => do let _ ← l.keyIn t) :=
    .forM fun l => (failsPlainly_keyIn l t).bind fun _ => .ok _
  have checked : FailsPlainly (c.check db t) :=
    .bind (.forM fun l => (db.failsPlainly_parentOf l).bind fun _ => .ok _) fun _ => keys _
  refine checked.bind fun _ => ?_
  split
  · exact .ok _
  · exact keys _

theorem failsPlainly_requireAssigned {α : Type} (t : StoredTable)
    (assignments : List (Assignment α)) : FailsPlainly (requireAssigned t assignments) := by
  refine .forM fun a => ?_
  split
  · exact .ok _
  · exact .error rfl

theorem failsPlainly_requireShallow (depth : Nat) : FailsPlainly (Sql.requireShallow depth) := by
  unfold Sql.requireShallow
  split
  · exact .error rfl
  · exact .ok _

variable {db} {b : BulkUpdate}

/-- A statement that can be read to its end is refused without a place. -/
theorem failsPlainly_prepareBulk (legible : Sql.requireWhole b.sql = .ok ()) :
    FailsPlainly (db.prepareBulk b) := by
  unfold prepareBulk
  rw [legible]
  refine FailsPlainly.bind (.ok ()) fun _ => (failsPlainly_requireShallow _).bind fun _ => ?_
  refine (db.failsPlainly_target _).bind fun t => ?_
  exact (failsPlainly_requireAssigned t _).bind fun _ => db.failsPlainly_checkAll _ t

/-- A bulk update that is matched can be read to its end and has a table to change. -/
theorem of_prepareBulk (matched : db.prepareBulk b = .ok ()) :
    Sql.requireWhole b.sql = .ok () ∧ ∃ t, db.target b.table = .ok t := by
  obtain ⟨_, legible, rest⟩ := bind_eq_ok_iff.mp matched
  obtain ⟨_, _, rest⟩ := bind_eq_ok_iff.mp rest
  obtain ⟨t, found, _⟩ := bind_eq_ok_iff.mp rest
  exact ⟨legible, t, found⟩

/-- An update that is matched has a table to change. -/
theorem of_prepareUpdate {u : Update} (matched : db.prepareUpdate u = .ok ()) :
    ∃ t, db.target u.table = .ok t := by
  obtain ⟨_, _, rest⟩ := bind_eq_ok_iff.mp matched
  obtain ⟨_, _, rest⟩ := bind_eq_ok_iff.mp rest
  obtain ⟨t, found, _⟩ := bind_eq_ok_iff.mp rest
  exact ⟨t, found⟩

theorem of_prepareDelete {d : Delete} (matched : db.prepareDelete d = .ok ()) :
    ∃ t, db.target d.table = .ok t := by
  obtain ⟨_, _, rest⟩ := bind_eq_ok_iff.mp matched
  obtain ⟨_, _, rest⟩ := bind_eq_ok_iff.mp rest
  obtain ⟨t, found, _⟩ := bind_eq_ok_iff.mp rest
  exact ⟨t, found⟩

/-- A table that is changed has the name that it was found by, but for the case of letters. -/
theorem same_of_target {name : String} {t : StoredTable} (found : db.target name = .ok t) :
    Text.same t.name name = true := by
  unfold target at found
  split at found
  · rename_i table here
    cases found
    have listed : db.tables.find? (fun t => Text.same t.name name) = some t := here
    have held := List.find?_some listed
    exact held
  · split at found
    · obtain ⟨_, _, rest⟩ := bind_eq_ok_iff.mp found
      cases rest
    · cases found

end Database

/-! ## Forms -/

/-- A form that matches a change, and then tells the name of the table that is changed. -/
structure Form.Matches (form : Form String) (prepare : Database → Except Fault Unit)
    (table : String) : Prop where
  plan : ∀ db, form.plan db = (do
    prepare db
    Store.targetName db table)
  found : ∀ db, prepare db = .ok () → ∃ t, db.target table = .ok t

/-- The form of a change is matched whenever the change is. -/
theorem Form.Matches.cases {form : Form String} {prepare : Database → Except Fault Unit}
    {table : String} (fits : form.Matches prepare table) (db : Database) :
    (∃ t, prepare db = .ok () ∧ db.target table = .ok t ∧ form.plan db = .ok t.name) ∨
      ∃ fault, prepare db = .error fault ∧ form.plan db = .error fault := by
  have plan := fits.plan db
  cases matched : prepare db with
  | ok done =>
      obtain ⟨t, found⟩ := fits.found db matched
      refine .inl ⟨t, rfl, found, ?_⟩
      rw [plan, matched, Store.targetName, found]
      rfl
  | error fault =>
      refine .inr ⟨fault, rfl, ?_⟩
      rw [plan, matched]
      rfl

theorem Store.bulkForm_matches (b : BulkUpdate) :
    (bulkForm b).Matches (fun db => db.prepareBulk b) b.table :=
  ⟨fun _ => rfl, fun _ matched => (Database.of_prepareBulk matched).2⟩

end TableAccess
