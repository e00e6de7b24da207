import TableAccess.Store.Request

/-!
# Rows applied one by one

What the rows of a bulk update do to the content of a store when each of them is run as an
update of its own, one after the other. References that are checked at the end of a
transaction are counted on the side: neither the fate of a row nor the database that it leaves
depends on how many of them are owed.
-/

namespace TableAccess

/-! ## Changes that do not look at what is owed -/

namespace Change

variable {α β : Type}

/-- Two runs of a change that end alike, but for what is owed. -/
structure Alike (first second : Except Fault α × Content) : Prop where
  result : first.1 = second.1
  database : first.2.database = second.2.database

/-- A change whose result and whose database do not depend on what is owed. -/
def Indifferent (change : Change α) : Prop :=
  ∀ x y : Content, x.database = y.database → Alike (change.outcome x) (change.outcome y)

namespace Indifferent

theorem bind {change : Change α} {next : α → Change β} (first : Indifferent change)
    (second : ∀ v, Indifferent (next v)) : Indifferent (change >>= next) := by
  intro x y same
  obtain ⟨result, database⟩ := first x y same
  rw [Attempt.outcome_bind, Attempt.outcome_bind]
  cases here : change.outcome x with
  | mk one reached =>
      cases there : change.outcome y with
      | mk two arrived =>
          rw [here, there] at result database
          cases result
          cases one with
          | ok v => exact second v reached arrived database
          | error e => exact ⟨rfl, database⟩

theorem of_database (read : Database → Except Fault α) :
    Indifferent (.of fun content => (read content.database, content)) :=
  fun _ _ same => ⟨congrArg read same, same⟩

theorem target (table : String) : Indifferent (target table) :=
  fun _ _ same => ⟨congrArg (fun db => db.target table) same, same⟩

theorem pure (v : α) : Indifferent (Pure.pure v) :=
  fun _ _ same => ⟨rfl, same⟩

theorem ofExcept (result : Except Fault α) : Indifferent (Attempt.ofExcept result) :=
  fun _ _ same => ⟨rfl, same⟩

theorem putTable (t : StoredTable) : Indifferent (putTable t) :=
  fun _ _ same => ⟨rfl, congrArg (fun db => db.replaceTable t) same⟩

/-- A change that leaves no trace when it fails is indifferent if the change itself is. -/
theorem whole {change : Change α} (inner : Indifferent change) : Indifferent (whole change) := by
  intro x y same
  obtain ⟨result, database⟩ := inner x y same
  unfold Change.whole
  rw [Attempt.outcome_of, Attempt.outcome_of]
  cases here : change.outcome x with
  | mk one reached =>
      cases there : change.outcome y with
      | mk two arrived =>
          rw [here, there] at result database
          cases result
          cases one with
          | ok v => exact ⟨rfl, database⟩
          | error e => exact ⟨rfl, same⟩

end Indifferent

end Change

/-! ## Counting references -/

theorem Owed.immediate_add {o p : Owed} (same : o.immediate = p.immediate) (deferred : Bool)
    (change : Int) : (o.add deferred change).immediate = (p.add deferred change).immediate := by
  unfold Owed.add
  cases deferred with
  | true => exact same
  | false => exact congrArg (· + change) same

/-- Steps that keep immediate counts the same do so together. -/
theorem Owed.immediate_foldl {step : Owed → Link → Owed}
    (each : ∀ o p l, o.immediate = p.immediate → (step o l).immediate = (step p l).immediate)
    (links : List Link) {o p : Owed} (same : o.immediate = p.immediate) :
    (links.foldl step o).immediate = (links.foldl step p).immediate := by
  induction links generalizing o p with
  | nil => exact same
  | cons l rest ih => exact ih (each o p l same)

namespace Concern

variable {o p : Owed}

/-- What is immediately owed when a row leaves does not depend on what is deferred. -/
theorem immediate_leaves (c : Concern) (s : Scene) (row : StoredRow)
    (same : o.immediate = p.immediate) :
    (c.leaves s row o).immediate = (c.leaves s row p).immediate := by
  unfold leaves
  refine Owed.immediate_foldl (fun o p l same => ?arising) _ ?settled
  case arising => exact Owed.immediate_add same _ _
  refine Owed.immediate_foldl (fun o p l same => ?_) _ same
  dsimp only
  cases deferred : l.reference.deferred with
  | false =>
      have count : o.count false = p.count false := same
      rw [count]
      split
      · exact Owed.immediate_add same _ _
      · exact same
  | true =>
      -- the deferred count may differ, but it changes nothing that is immediate
      have kept (q : Owed) : (if q.count true ≠ 0 ∧ s.dangles l row = true then q.add true (-1)
          else q).immediate = q.immediate := by
        split <;> rfl
      rw [kept, kept, same]

theorem immediate_settles (c : Concern) (s : Scene) (row : StoredRow)
    (same : o.immediate = p.immediate) :
    (c.settles s row o).immediate = (c.settles s row p).immediate := by
  unfold settles
  refine Owed.immediate_foldl (fun o p l same => ?_) _ same
  dsimp only
  cases deferred : l.reference.deferred with
  | false =>
      have count : o.count false = p.count false := same
      rw [count]
      split
      · exact same
      · exact Owed.immediate_add same _ _
  | true =>
      have kept (q : Owed) : (if q.count true = 0 then q
          else q.add true (-(s.dependents l row fun _ => true : Int))).immediate =
            q.immediate := by
        split <;> rfl
      rw [kept, kept, same]

theorem immediate_comes (c : Concern) (s : Scene) (row : StoredRow)
    (same : o.immediate = p.immediate) :
    (c.comes s row o).immediate = (c.comes s row p).immediate := by
  unfold comes
  refine immediate_settles c s row (Owed.immediate_foldl (fun o p l same => ?_) _ same)
  split
  · exact Owed.immediate_add same _ _
  · exact same

end Concern

namespace Change

/-- Replacing rows does not depend on what is owed. -/
theorem indifferent_updateRows (c : Concern) (assignments : List (Assignment Cell))
    (table : String) (rows : List StoredRow) (immediate : Int) :
    Indifferent (updateRows c assignments table immediate rows) := by
  induction rows generalizing immediate with
  | nil => exact .pure immediate
  | cons row rest ih =>
      refine .bind (.target table) fun t => .bind (.ofExcept _) fun changed => ?_
      refine .bind (.ofExcept _) fun _ => ?_
      rintro ⟨db, owed⟩ ⟨_, other⟩ rfl
      let others := t.rows.filter fun other => other.number != row.number
      let counts (owed : Int) : Owed := c.comes (.replacing db t c others) changed
        (c.leaves (.whole db t) row { immediate, deferred := owed })
      have immediate_eq : (counts owed).immediate = (counts other).immediate :=
        c.immediate_comes _ changed (c.immediate_leaves _ row rfl)
      let reached (owed : Int) : Content :=
        ⟨db.replaceTable { t with rows := t.placed changed others }, (counts owed).deferred⟩
      have later := ih (counts owed).immediate (reached owed) (reached other) rfl
      have second : (updateRows c assignments table (counts owed).immediate rest).outcome
          (reached other) = (updateRows c assignments table (counts other).immediate rest).outcome
            (reached other) := by rw [immediate_eq]
      rw [second] at later
      exact later

theorem Indifferent.settled (immediate : Int) : Indifferent (settled immediate) := by
  unfold Change.settled
  split
  · exact fun _ _ same => ⟨rfl, same⟩
  · exact fun _ _ same => ⟨rfl, same⟩

theorem indifferent_updateWhere (table : String) (assignments : List (Assignment Cell))
    (chosen : Database → StoredTable → List StoredRow) :
    Indifferent (updateWhere table assignments chosen) := by
  refine .whole (.bind (.target table) fun t => ?_)
  have read : Indifferent (Attempt.reading fun (content : Content) => content.database) :=
    fun _ _ same => ⟨congrArg Except.ok same, same⟩
  refine .bind read fun db => .bind (indifferent_updateRows _ _ _ _ _) fun immediate => ?_
  exact .bind (.settled immediate) fun _ => .pure _

end Change

namespace BulkUpdate

/-- The update by one row: it is matched against the content and run. -/
def rowChange (b : BulkUpdate) (row : RowValues) : Change Nat := do
  Attempt.of fun content => (content.database.prepareBulk b, content)
  Change.updateKeyed b row

/-- The updates by rows one after the other, up to the first that fails; tells how many stored
rows were changed. -/
def rowsChange (b : BulkUpdate) : List RowValues → Change Nat
  | [] => pure 0
  | row :: rest => do
      let changed ← b.rowChange row
      let later ← b.rowsChange rest
      pure (changed + later)

/-- What the updates by rows come to on a database, in a transaction of their own. -/
def applied (b : BulkUpdate) (db : Database) (rows : List RowValues) :
    Except Fault Nat × Content :=
  (b.rowsChange rows).outcome { database := db }

variable {b : BulkUpdate} {row : RowValues} {rows : List RowValues} {x y : Content}

theorem indifferent_rowChange (b : BulkUpdate) (row : RowValues) :
    (b.rowChange row).Indifferent := by
  have matching : Change.Indifferent
      (.of fun content => (content.database.prepareBulk b, content)) :=
    .of_database fun db => db.prepareBulk b
  have keyed : (Change.updateKeyed b row).Indifferent := by
    unfold Change.updateKeyed
    exact Change.indifferent_updateWhere _ _ _
  unfold rowChange
  exact matching.bind fun _ => keyed

theorem indifferent_rowsChange (b : BulkUpdate) (rows : List RowValues) :
    (b.rowsChange rows).Indifferent := by
  induction rows with
  | nil => exact .pure 0
  | cons row rest ih =>
      exact .bind (indifferent_rowChange b row) fun _ => .bind ih fun _ => .pure _

/-! ## Rows in sequence -/

theorem rowsChange_cons_eq_ok {changed later : Nat} {reached : Content}
    (first : (b.rowChange row).outcome x = (.ok changed, reached))
    (second : (b.rowsChange rows).outcome reached = (.ok later, y)) :
    (b.rowsChange (row :: rows)).outcome x = (.ok (changed + later), y) := by
  rw [rowsChange, Attempt.outcome_bind, first]
  dsimp only
  rw [Attempt.outcome_bind, second]
  rfl

theorem rowsChange_cons_eq_error {changed : Nat} {reached : Content} {fault : Fault}
    (first : (b.rowChange row).outcome x = (.ok changed, reached))
    (second : (b.rowsChange rows).outcome reached = (.error fault, y)) :
    (b.rowsChange (row :: rows)).outcome x = (.error fault, y) := by
  rw [rowsChange, Attempt.outcome_bind, first]
  dsimp only
  rw [Attempt.outcome_bind, second]

theorem rowsChange_eq_error_of_head {fault : Fault}
    (first : (b.rowChange row).outcome x = (.error fault, y)) :
    (b.rowsChange (row :: rows)).outcome x = (.error fault, y) := by
  rw [rowsChange, Attempt.outcome_bind, first]

theorem rowsChange_append (b : BulkUpdate) (first second : List RowValues) :
    b.rowsChange (first ++ second) = (do
      let changed ← b.rowsChange first
      let later ← b.rowsChange second
      pure (changed + later)) := by
  induction first with
  | nil => simp only [List.nil_append, rowsChange, pure_bind, Nat.zero_add, bind_pure]
  | cons row rest ih =>
      simp only [List.cons_append, rowsChange, ih, bind_assoc, pure_bind, Nat.add_assoc]

/-! ## Rows in parts -/

variable {db : Database} {first second : List RowValues} {fault : Fault}

/-- After rows that succeed, further ones come to what they come to by themselves on the database
that the former have left. -/
theorem applied_append (second : List RowValues) {changed : Nat} {reached : Content}
    (here : b.applied db first = (.ok changed, reached)) :
    (b.applied db (first ++ second)).1 = (b.applied reached.database second).1.map (changed + ·) ∧
      (b.applied db (first ++ second)).2.database = (b.applied reached.database second).2.database
    := by
  have alike := b.indifferent_rowsChange second reached { database := reached.database } rfl
  have whole : b.applied db (first ++ second) =
      (((b.rowsChange second).outcome reached).1.map (changed + ·),
        ((b.rowsChange second).outcome reached).2) := by
    have start : (b.rowsChange first).outcome { database := db } = (.ok changed, reached) := here
    unfold applied
    rw [rowsChange_append, Attempt.outcome_bind, start]
    dsimp only
    rw [Attempt.outcome_bind]
    cases (b.rowsChange second).outcome reached with
    | mk result y =>
        cases result with
        | ok later => rfl
        | error fault => rfl
  rw [whole]
  exact ⟨congrArg (Except.map (changed + ·)) alike.result, alike.database⟩

/-- After a row that fails nothing more is done. -/
theorem applied_append_error (second : List RowValues)
    (here : (b.applied db first).1 = .error fault) :
    (b.applied db (first ++ second)).1 = .error fault := by
  unfold applied at here ⊢
  rw [rowsChange_append, Attempt.outcome_bind]
  cases ended : (b.rowsChange first).outcome { database := db } with
  | mk result reached =>
      rw [ended] at here
      cases here
      rfl

/-- If rows succeed, then so do the first of them, and after these the others. -/
theorem of_applied_append {total : Nat} {y : Content}
    (whole : b.applied db (first ++ second) = (.ok total, y)) :
    ∃ changed later reached last, b.applied db first = (.ok changed, reached) ∧
      b.applied reached.database second = (.ok later, last) ∧ total = changed + later ∧
      last.database = y.database := by
  cases here : b.applied db first with
  | mk result reached =>
      cases result with
      | error fault =>
          have failed := applied_append_error second (congrArg Prod.fst here)
          rw [whole] at failed
          cases failed
      | ok changed =>
          obtain ⟨results, databases⟩ := applied_append second here
          rw [whole] at results databases
          cases there : b.applied reached.database second with
          | mk later last =>
              rw [there] at results databases
              cases later with
              | error fault => cases results
              | ok later =>
                  cases results
                  exact ⟨changed, later, reached, last, rfl, there, rfl, databases.symm⟩

end BulkUpdate

end TableAccess
