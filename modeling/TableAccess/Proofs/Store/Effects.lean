import TableAccess.Proofs.Store.Changes
import TableAccess.Proofs.Store.Statement

/-!
# What statements do inside a transaction

A statement that changes something does to the content of a store what its change does by itself,
or it is refused and does nothing. Where it is run for several rows, the rows are changed one
after the other, up to the first that does not succeed; those before it stay changed.
-/

namespace TableAccess

open Attempt (Ends)

variable {α β ρ : Type}

/-! ## Changes -/

namespace Change

/-- A change that leaves the database as it was if it fails. -/
def Steady (change : Change α) : Prop :=
  ∀ x fault y, change.outcome x = (.error fault, y) → y.database = x.database

theorem steady_whole (change : Change α) : (whole change).Steady := by
  intro x fault y failed
  unfold whole at failed
  rw [Attempt.outcome_of] at failed
  split at failed
  · cases failed
  · cases failed
    rfl

theorem steady_insert (i : Insert) (row : List Value) : (insert i row).Steady :=
  fun x _ _ failed => (insertRow_ends _ _ x).holds_error failed

theorem steady_updateKeyed (b : BulkUpdate) (row : RowValues) : (updateKeyed b row).Steady :=
  steady_whole _

theorem steady_create (new : NewTable) : (create new).Steady := by
  intro x fault y failed
  unfold create at failed
  rw [Attempt.outcome_of] at failed
  split at failed
  · cases failed
  · cases failed
    rfl

end Change

namespace Form

variable {form : Form String} {change : Change α} {x y : Content} {v : α}

/-- A statement that succeeds by itself is matched, and its change succeeds. -/
theorem of_alone (ended : (form.alone change).outcome x = (.ok v, y)) :
    ∃ name, form.plan x.database = .ok name ∧ change.outcome x = (.ok v, y) := by
  cases planned : form.plan x.database with
  | ok name => exact ⟨name, rfl, (alone_matched planned).symm.trans ended⟩
  | error fault =>
      rw [alone_refused planned] at ended
      cases ended

theorem steady_alone (form : Form String) (steady : change.Steady) :
    (form.alone change).Steady := by
  intro x fault y failed
  cases planned : form.plan x.database with
  | ok name =>
      rw [alone_matched planned] at failed
      exact steady x fault y failed
  | error fault =>
      rw [alone_refused planned] at failed
      cases failed
      rfl

end Form

/-! ## Rows -/

/-- Changes by rows one after the other, each of which succeeds. -/
inductive RowByRow (change : ρ → Change α) : List ρ → Content → Content → Prop where
  | none (x : Content) : RowByRow change [] x x
  | next {row : ρ} {rest : List ρ} {v : α} {x y z : Content}
      (first : (change row).outcome x = (.ok v, y)) (later : RowByRow change rest y z) :
      RowByRow change (row :: rest) x z

/-- Changes by rows up to one that does not succeed: the database is as the rows before it have
left it. -/
def Interrupted (change : ρ → Change α) (rows : List ρ) (x y : Content) : Prop :=
  ∃ done row later z, rows = done ++ row :: later ∧ RowByRow change done x z ∧
    y.database = z.database ∧ (y = z ∨ ∃ fault, (change row).outcome z = (.error fault, y))

/-- The insertion of one row: it is matched against the content and run. -/
def Insert.rowChange (i : Insert) (row : List Value) : Change Int64 :=
  (Store.insertForm i).alone (Change.insert i row)

theorem Insert.steady_rowChange (i : Insert) (row : List Value) : (i.rowChange row).Steady :=
  Form.steady_alone _ (Change.steady_insert i row)

theorem BulkUpdate.steady_rowChange (b : BulkUpdate) (row : RowValues) :
    (b.rowChange row).Steady := by
  intro x fault y failed
  rw [← Store.alone_updateKeyed] at failed
  exact Form.steady_alone _ (Change.steady_updateKeyed b row) x fault y failed

namespace Interrupted

variable {change : ρ → Change α} {row : ρ} {rows more : List ρ} {x y z : Content}

/-- A row that does not succeed interrupts what it is the first of. -/
theorem first (later : List ρ) (steady : (change row).Steady)
    (ended : y = x ∨ ∃ fault, (change row).outcome x = (.error fault, y)) :
    Interrupted change (row :: later) x y := by
  refine ⟨[], row, later, x, rfl, .none x, ?_, ended⟩
  rcases ended with rfl | ⟨fault, failed⟩
  · rfl
  · exact steady x fault y failed

theorem after {v : α} (halted : Interrupted change rows y z)
    (first : (change row).outcome x = (.ok v, y)) : Interrupted change (row :: rows) x z := by
  obtain ⟨done, next, later, w, rfl, before, kept, ended⟩ := halted
  exact ⟨row :: done, next, later, w, rfl, .next first before, kept, ended⟩

end Interrupted

namespace RowByRow

variable {change : ρ → Change α} {rows more : List ρ} {x y z : Content}

theorem append (first : RowByRow change rows x y) (second : RowByRow change more y z) :
    RowByRow change (rows ++ more) x z := by
  induction first with
  | none x => exact second
  | next here _ ih => exact .next here (ih second)

theorem interrupted (first : RowByRow change rows x y) (second : Interrupted change more y z) :
    Interrupted change (rows ++ more) x z := by
  induction first with
  | none x => exact second
  | next here _ ih => exact (ih second).after here

end RowByRow

/-! ## Statements -/

namespace Store

variable {outside s : Store} {c : Nat} {x : Content}

theorem changeWithin_within (owning : Within.Owning outside c x s) (free : outside.Free c)
    (change : Change α) : (changeWithin c change).Ends s
      (fun v next => ∃ y, change.outcome x = (.ok v, y) ∧ Within outside c y next)
      fun fault next => ∃ y, change.outcome x = (.error fault, y) ∧ Within outside c y next := by
  have content : ({ database := s.database, owed := s.owed c } : Content) = x := by
    rw [owning.database, owning.owed free]
  have changed (y : Content) : Within outside c y
      (({ s with database := y.database } : Store).updateTransaction c
        fun t => { t with owed := y.owed }) := by
    obtain ⟨own, listed, mine, _⟩ := owning.transactions
    refine ⟨rfl, ⟨{ own with owed := y.owed }, ?_, mine, rfl⟩, .inr ⟨owning.vacant, owning.owner⟩⟩
    have others : outside.transactions.map
        (fun t => if t.connection == c then { t with owed := y.owed } else t) =
          outside.transactions := by
      refine (List.map_congr_left fun own member => ?_).trans (List.map_id _)
      exact if_neg fun mine => free.closed own member (eq_of_beq mine)
    unfold Store.updateTransaction
    dsimp only
    rw [listed, List.map_append, others, List.map_singleton, if_pos (by simp [mine])]
  refine .onPart ?_
  rw [content]
  cases ended : change.outcome x with
  | mk result y =>
      cases result with
      | ok v => exact .of_eq_ok ended ⟨y, rfl, changed y⟩
      | error fault => exact .of_eq_error ended ⟨y, rfl, changed y⟩

/-- A statement that is not refused is matched with the content and does what its change does. -/
theorem write_within (within : Within outside c x s) (free : outside.Free c) (form : Form β)
    (table : β → String) (change : Change α) : (write c form table change).Ends s
      (fun v next => ∃ plan y, form.plan x.database = .ok plan ∧
        change.outcome x = (.ok v, y) ∧ Within outside c y next)
      fun fault next => ∃ y, (y = x ∨ ∃ plan, form.plan x.database = .ok plan ∧
        change.outcome x = (.error fault, y)) ∧ Within outside c y next := by
  unfold write
  refine (enterWriting_within within free).bind ?_ fun _ _ kept => ⟨x, .inl rfl, kept⟩
  intro _ entered owning
  refine Ends.bind (rematch_notes form) ?_
    fun _ _ noted => ⟨x, .inl rfl, owning.toWithin.noted free noted⟩
  rintro plan matched ⟨noted, planned⟩
  rw [owning.database] at planned
  have owning := owning.noted free noted
  refine Ends.bind (takeForWriting_notes _) ?_
    fun _ _ noted => ⟨x, .inl rfl, owning.toWithin.noted free noted⟩
  rintro _ taken ⟨noted, _⟩
  have owning := owning.noted free noted
  refine .after rfl ?_
  dsimp only
  rw [owning.isOpen, if_pos rfl]
  refine (changeWithin_within owning free change).mono ?_ ?_
  · rintro v next ⟨y, ended, held⟩
    exact ⟨plan, y, planned, ended, held⟩
  · rintro fault next ⟨y, ended, held⟩
    exact ⟨y, .inr ⟨plan, planned, ended⟩, held⟩

theorem writeRows_within (within : Within outside c x s) (free : outside.Free c)
    (form : Form String) (count : α → Nat) (change : Change α) :
    (writeRows c form count change).Ends s
      (fun v next => ∃ y, (form.alone change).outcome x = (.ok v, y) ∧ Within outside c y next)
      fun fault next => ∃ y, (y = x ∨ (form.alone change).outcome x = (.error fault, y)) ∧
        Within outside c y next := by
  have counting {y : Content} {reached : Store} (held : Within outside c y reached) (n : Nat) :
      Within outside c y (if reached.isExpired c form then reached
        else reached.remember c fun m => { m with count := n }) := by
    split
    · exact held
    · exact held.noted free (.remember c c reached _)
  unfold writeRows
  refine Ends.bind (renew_notes form) ?_
    fun _ _ noted => ⟨x, .inl rfl, within.noted free noted⟩
  rintro _ renewed ⟨noted, _⟩
  refine .observing ((write_within (within.noted free noted) free form id change).mono ?_ ?_)
  · rintro v reached ⟨name, y, planned, ended, held⟩
    rw [← Form.alone_matched planned] at ended
    exact .after rfl (.of_eq_ok rfl ⟨y, ended, counting held _⟩)
  · rintro fault reached ⟨y, ended, held⟩
    refine .after rfl (.of_eq_error rfl ⟨y, ?_, counting held _⟩)
    refine ended.imp id ?_
    rintro ⟨name, planned, failed⟩
    rw [Form.alone_matched planned, failed]

/-- A statement that is matched again for every row of which it is run. -/
theorem statement_within (within : Within outside c x s) (free : outside.Free c)
    (form : Form String) (count : α → Nat) {change : Change α} (steady : change.Steady) :
    (takeUp c form >>= fun _ => writeRows c form count change).Ends s
      (fun v next => ∃ y, (form.alone change).outcome x = (.ok v, y) ∧ Within outside c y next)
      fun _ next => ∃ y, y.database = x.database ∧ Within outside c y next := by
  refine Ends.bind (takeUp_notes form) ?_ fun _ _ noted => ⟨x, rfl, within.noted free noted⟩
  rintro _ taken ⟨noted, _⟩
  refine (writeRows_within (within.noted free noted) free form count change).mono
    (fun _ _ kept => kept) ?_
  rintro fault next ⟨y, rfl | failed, held⟩
  · exact ⟨y, rfl, held⟩
  · exact ⟨y, form.steady_alone steady x fault y failed, held⟩

theorem update_within (within : Within outside c x s) (free : outside.Free c) (u : Update) :
    (update c u).Ends s
      (fun n next => ∃ y, x.database.prepareUpdate u = .ok () ∧
        (Change.update u).outcome x = (.ok n, y) ∧ Within outside c y next)
      fun _ next => ∃ y, y.database = x.database ∧ Within outside c y next := by
  unfold update
  refine (statement_within within free _ id (Change.steady_whole _)).mono ?_ fun _ _ kept => kept
  rintro n next ⟨y, ended, held⟩
  obtain ⟨name, planned, changed⟩ := Form.of_alone ended
  obtain ⟨_, prepared, _⟩ := bind_eq_ok_iff.mp planned
  exact ⟨y, prepared, changed, held⟩

theorem delete_within (within : Within outside c x s) (free : outside.Free c) (d : Delete) :
    (delete c d).Ends s
      (fun n next => ∃ y, x.database.prepareDelete d = .ok () ∧
        (Change.delete d).outcome x = (.ok n, y) ∧ Within outside c y next)
      fun _ next => ∃ y, y.database = x.database ∧ Within outside c y next := by
  unfold delete
  refine (statement_within within free _ id (Change.steady_whole _)).mono ?_ fun _ _ kept => kept
  rintro n next ⟨y, ended, held⟩
  obtain ⟨name, planned, changed⟩ := Form.of_alone ended
  obtain ⟨_, prepared, _⟩ := bind_eq_ok_iff.mp planned
  exact ⟨y, prepared, changed, held⟩

theorem create_within (within : Within outside c x s) (free : outside.Free c) (new : NewTable) :
    (create c new).Ends s
      (fun _ next => ∃ y, (Change.create new).outcome x = (.ok (), y) ∧ Within outside c y next)
      fun _ next => ∃ y, y.database = x.database ∧ Within outside c y next := by
  have refused (t : Store) (noted : Noted c s t) :
      ∃ y : Content, y.database = x.database ∧ Within outside c y t :=
    ⟨x, rfl, within.noted free noted⟩
  unfold create
  refine Ends.bind (takeUp_notes _) ?_ fun _ t noted => refused t noted
  rintro _ taken ⟨noted, _⟩
  refine Ends.bind (renew_notes _) ?_ fun _ t later => refused t (noted.trans later)
  rintro _ renewed ⟨later, _⟩
  have within := within.noted free (noted.trans later)
  refine (write_within within free _ _ _).bind ?_ ?_
  · rintro _ next ⟨_, y, _, created, held⟩
    exact .of_eq_ok rfl ⟨y, created, held⟩
  · rintro fault next ⟨y, rfl | ⟨_, planned, failed⟩, held⟩
    · exact ⟨y, rfl, held⟩
    · exact ⟨y, Change.steady_create new x fault y failed, held⟩

/-- A row that is put into a table which numbers its rows is the last one that its connection
remembers. -/
theorem number_of_insertRow {i : Insert} {row : List Value} {number : Int64} {y : Content}
    {reached : Store} (ended : (i.rowChange row).outcome x = (.ok number, y))
    (holds : reached.database = y.database) {own : StoredTable}
    (here : x.database.table? i.table = some own) (numbered : own.definition.withoutRowid = false) :
    ((match reached.database.table? i.table with
      | some t => if t.definition.withoutRowid then reached
          else reached.remember c fun m => { m with number }
      | none => reached).memory c).number = number := by
  obtain ⟨_, _, inserted⟩ := Form.of_alone ended
  obtain ⟨new, rfl, t, found, _, _, grown⟩ := (Change.insertRow_ends _ _ _).holds_ok inserted
  cases found.symm.trans here
  have there := Database.table?_replaceTable found (own.placed new own.rows)
  rw [← grown, ← holds] at there
  rw [there]
  dsimp only
  rw [numbered, if_neg (by decide), memory_remember, if_pos rfl]

theorem insertRow_within (within : Within outside c x s) (free : outside.Free c) (i : Insert)
    (row : List Value) : (insertRow c i row).Ends s
      (fun _ next => ∃ number y, (i.rowChange row).outcome x = (.ok number, y) ∧
        Within outside c y next ∧ ∀ stored, x.database.table? i.table = some stored →
          stored.definition.withoutRowid = false → (next.memory c).number = number)
      fun fault next => ∃ y, (y = x ∨ (i.rowChange row).outcome x = (.error fault, y)) ∧
        Within outside c y next := by
  unfold insertRow
  refine (writeRows_within within free (insertForm i) _ _).bind ?_ fun _ _ kept => kept
  rintro number reached ⟨y, ended, held⟩
  refine .of_eq_ok rfl ⟨number, y, ended, held.noted free ?_, ?_⟩
  · dsimp only
    split
    · split
      · exact .refl c reached
      · exact .remember c c reached _
    · exact .refl c reached
  · exact fun own here numbered => number_of_insertRow ended held.database here numbered

/-- A row of a bulk update does what its change does by itself. -/
theorem updateRow_within (within : Within outside c x s) (free : outside.Free c) (b : BulkUpdate)
    (row : RowValues) : (updateRow c b row).Ends s
      (fun n next => ∃ y, (b.rowChange row).outcome x = (.ok n, y) ∧ Within outside c y next)
      fun fault next => ∃ y, (y = x ∨ (b.rowChange row).outcome x = (.error fault, y)) ∧
        Within outside c y next := by
  have step := writeRows_within within free (bulkForm b) id (Change.updateKeyed b row)
  simp only [alone_updateKeyed] at step
  exact step

/-! ## Statements without a transaction -/

/-- A change in a transaction of its own touches nothing but the content. -/
theorem changeAlone_since {t : Store} {db : Database} (since : Since s db t) (change : Change α) :
    (changeAlone change).Ends t
      (fun v next => ∃ y, change.outcome { database := db } = (.ok v, y) ∧ Since s y.database next)
      fun _ next => Since s db next := by
  unfold changeAlone Ends
  rw [Attempt.outcome_of, since.database]
  cases ended : change.outcome { database := db } with
  | mk result y =>
      cases result with
      | error fault => exact since
      | ok v =>
          dsimp only
          split
          · rename_i refused
            split at refused
            · cases refused
            · cases refused
              exact ⟨y, rfl, rfl, since.transactions, since.holder⟩
          · rename_i refused
            split at refused
            · cases refused
              exact since
            · cases refused

theorem write_free (free : s.Free c) (form : Form β) (table : β → String) (change : Change α) :
    (write c form table change).Ends s
      (fun v next => ∃ plan y, form.plan s.database = .ok plan ∧
        change.outcome { database := s.database } = (.ok v, y) ∧ Since s y.database next)
      fun _ next => Since s s.database next := by
  have since {t : Store} (noted : Noted c s t) : Since s s.database t :=
    (Since.refl s).noted free noted
  unfold write
  refine (enterWriting_closed free.isOpen).bind ?_ ?_
  · rintro _ _ ⟨rfl, _⟩
    refine Ends.bind (rematch_notes _) ?_ fun _ _ noted => since noted
    rintro plan matched ⟨noted, planned⟩
    refine Ends.bind (takeForWriting_notes _) ?_ fun _ _ later => since (noted.trans later)
    rintro _ taken ⟨later, _⟩
    have last := since (noted.trans later)
    refine .after rfl ?_
    dsimp only
    rw [(last.free free).isOpen]
    refine (changeAlone_since last change).mono ?_ fun _ _ kept => kept
    exact fun v next ⟨y, ended, kept⟩ => ⟨plan, y, planned, ended, kept⟩
  · rintro _ _ rfl
    exact .refl _

theorem writeRows_free (free : s.Free c) (form : Form String) (count : α → Nat)
    (change : Change α) : (writeRows c form count change).Ends s
      (fun v next => ∃ y, (form.alone change).outcome { database := s.database } = (.ok v, y) ∧
        Since s y.database next)
      fun _ next => Since s s.database next := by
  have counting {db : Database} {reached : Store} (since : Since s db reached) (n : Nat) :
      Since s db (if reached.isExpired c form then reached
        else reached.remember c fun m => { m with count := n }) := by
    split
    · exact since
    · exact since.noted free (.remember c c reached _)
  unfold writeRows
  refine Ends.bind (renew_notes form) ?_ fun _ _ noted => (Since.refl s).noted free noted
  rintro _ renewed ⟨noted, _⟩
  have first := (Since.refl s).noted free noted
  refine .observing ((write_free (first.free free) form id change).mono ?_ ?_)
  · rintro v reached ⟨name, y, planned, ended, since⟩
    rw [noted.database] at planned ended
    rw [← Form.alone_matched (x := { database := s.database }) planned] at ended
    exact .after rfl (.of_eq_ok rfl ⟨y, ended, counting (first.trans since) _⟩)
  · intro fault reached since
    rw [noted.database] at since
    exact .after rfl (.of_eq_error rfl (counting (first.trans since) _))

theorem insertRow_free (free : s.Free c) (i : Insert) (row : List Value) :
    (insertRow c i row).Ends s
    (fun _ next => ∃ number y,
      (i.rowChange row).outcome { database := s.database } = (.ok number, y) ∧
      Since s y.database next ∧ ∀ stored, s.database.table? i.table = some stored →
        stored.definition.withoutRowid = false → (next.memory c).number = number)
    fun _ next => Since s s.database next := by
  unfold insertRow
  refine (writeRows_free free (insertForm i) _ _).bind ?_ fun _ _ kept => kept
  rintro number reached ⟨y, ended, since⟩
  refine .of_eq_ok rfl ⟨number, y, ended, since.noted free ?_, ?_⟩
  · dsimp only
    split
    · split
      · exact .refl c reached
      · exact .remember c c reached _
    · exact .refl c reached
  · exact fun own here numbered => number_of_insertRow ended since.database here numbered

end Store

end TableAccess
