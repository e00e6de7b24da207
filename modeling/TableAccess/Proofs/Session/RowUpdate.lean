import TableAccess.Proofs.Session.BulkUpdate
import TableAccess.Proofs.Store.RowUpdate

/-!
# Bulk updates of one row

On a handle that is ready, a bulk update of one row and the update that this row stands for run in
a transaction of their own on a database. So they report the same number of stored rows and leave
the same database, or both fail and leave the database as it was.
-/

namespace TableAccess

/-- Changes that end alike, but for the place of a fault, do so in transactions of their own. -/
theorem Change.AlikeUpToPlace.bracketed {α : Type} {first second : Change α} {db : Database}
    (alike : AlikeUpToPlace (first.outcome { database := db }) (second.outcome { database := db }))
    (table : String) :
    ((first.bracketed table).outcome db).1.toOption =
        ((second.bracketed table).outcome db).1.toOption ∧
      ((first.bracketed table).outcome db).2 = ((second.bracketed table).outcome db).2 := by
  obtain ⟨results, contents⟩ := alike
  cases here : first.outcome { database := db } with
  | mk one reached =>
      cases there : second.outcome { database := db } with
      | mk two arrived =>
          rw [here, there] at results contents
          cases contents
          cases two with
          | ok v =>
              cases mapError_eq_ok_iff.mp results
              by_cases owing : 0 < reached.owed
              · rw [bracketed_eq_owing here owing, bracketed_eq_owing there owing]
                exact ⟨rfl, rfl⟩
              · rw [bracketed_eq_ok here owing, bracketed_eq_ok there owing]
                exact ⟨rfl, rfl⟩
          | error fault =>
              obtain ⟨other, rfl, _⟩ := mapError_eq_error_iff.mp results
              rw [bracketed_eq_error here, bracketed_eq_error there]
              exact ⟨rfl, rfl⟩

/-! ## Updates -/

namespace Store

def updateForm (u : Update) : Form String where
  sql := u.statement.sql
  plan := fun db => do
    db.prepareUpdate u
    targetName db u.table
  rebinds := u.condition.bindsPattern

theorem update_eq (c : Nat) (u : Update) : update c u = (do
    let _ ← takeUp c (updateForm u)
    writeRows c (updateForm u) id (Change.update u)) :=
  rfl

theorem updateForm_matches (u : Update) :
    (updateForm u).Matches (fun db => db.prepareUpdate u) u.table :=
  ⟨fun _ => rfl, fun _ matched => Database.of_prepareUpdate matched⟩

theorem updateForm_sql (u : Update) : (updateForm u).sql = u.statement.sql := by
  unfold updateForm
  rfl

end Store

variable {others : List Transaction} {c : Nat} {db : Database} {st : Store} {h : Handle}
  {u : Update}

/-- An update on a store at rest ends as it does on the content of the store. -/
theorem Connection.update_outcome (dependable : (Store.updateForm u).Dependable u.table db)
    (clear : Clear others c u.table) (rest : Resting others u.statement.sql db st) :
    ((update c u).outcome st).1 = ((u.change.bracketed u.table).outcome db).1 ∧
      Resting others u.statement.sql ((u.change.bracketed u.table).outcome db).2
        ((update c u).outcome st).2 := by
  have form : (update c u : Attempt Store Error Nat) = inTransaction c .immediate
      ((Store.update c u).mapError (Error.ofFault u.table)) := rfl
  rw [form, Store.update_eq]
  rw [← Store.updateForm_sql] at rest ⊢
  apply inTransaction_outcome clear rest
  intro entered writing
  have ends := Store.runOnce_ends dependable clear writing (Change.update u) id
  rw [(Store.updateForm_matches u).alone] at ends
  exact ends

/-- An accepted update on a handle that is ready ends as it does on the content of its store. -/
theorem Handle.update_outcome {table : String} {set : RowValues} {f : Filter}
    (accepted : Update.compile h.catalog.current table set f = .ok u)
    (dependable : (Store.updateForm u).Dependable u.table db)
    (ready : Ready others u.table u.statement.sql db h) :
    ((update table set f).outcome h).1 = ((u.change.bracketed u.table).outcome db).1 ∧
      Ready others u.table u.statement.sql ((u.change.bracketed u.table).outcome db).2
        ((update table set f).outcome h).2 := by
  have borrowed : (update table set f).outcome h = (withConnection fun c =>
      Session.update ⟨c, h.catalog.current⟩ table set f).outcome h := by
    rw [update_eq]
    rfl
  rw [borrowed]
  apply withConnection_outcome ready
  intro c s clear rest
  have followed : (Session.update ⟨c, h.catalog.current⟩ table set f).outcome s =
      (Connection.update c u).outcome s := by
    unfold Session.update
    rw [accepted, Tracker.tracked_ok]
  rw [followed]
  exact Connection.update_outcome dependable clear rest

namespace BulkUpdate

variable {s : Snapshot} {name : String} {rows : List RowValues} {keys : List String}
  {chunkSize : Nat} {b : BulkUpdate} {row : RowValues} {x : Content}

/-- Which rows a bulk update has does not show in what one of them does. -/
theorem rowChange_withRows (b : BulkUpdate) (rows : List RowValues) (row : RowValues) :
    ({ b with rows } : BulkUpdate).rowChange row = b.rowChange row :=
  rfl

/-- A single row is what a chunk of it is. -/
theorem rowsChange_singleton (b : BulkUpdate) (row : RowValues) :
    b.rowsChange [row] = b.rowChange row := by
  simp [rowsChange]

theorem updateForm_dependable (accepted : compile s name rows keys chunkSize = .ok (some b))
    (listed : row ∈ rows) (unreserved : orKey ∉ keys) (stored : b.KeysStored db)
    (room : keys.length + 1 ≠ Sql.greatestDepth) :
    (Store.updateForm (b.rowUpdate row)).Dependable b.table db := by
  obtain ⟨_, _, keyed, _⟩ := compile_eq_ok_iff.mp accepted
  obtain rfl := keys_eq_of_compile accepted
  apply (Store.updateForm_matches (b.rowUpdate row)).dependable
  · intro matched
    obtain ⟨_, legible, _⟩ := bind_eq_ok_iff.mp matched
    exact legible
  · intro legible
    have same := requireWhole_rowUpdate accepted listed unreserved
    have here : Sql.requireWhole (b.rowUpdate row).statement.sql = .ok () := legible
    rw [here] at same
    have own : Sql.requireWhole b.sql = .ok () := mapError_eq_ok_iff.mp same.symm
    rw [prepareUpdate_of_whole keyed stored room (here.trans own.symm)]
    exact Database.failsPlainly_prepareBulk own

end BulkUpdate

/-- A bulk update of one row on a handle that is ready ends as the row does on the content of its
store. -/
theorem Handle.bulkUpdate_singleton {table : String} {row : RowValues} {keys : List String}
    {asked : Option Nat} {b : BulkUpdate}
    (accepted : BulkUpdate.compile h.catalog.current table [row] keys
      (asked.getD h.settings.defaultChunkSize) = .ok (some b))
    (ready : Ready others b.table b.sql db h) :
    ((bulkUpdate table [row] keys asked).outcome h).1 =
        (((b.rowChange row).bracketed b.table).outcome db).1.map (BulkReport.mk 1) ∧
      Ready others b.table b.sql (((b.rowChange row).bracketed b.table).outcome db).2
        ((bulkUpdate table [row] keys asked).outcome h).2 := by
  have positive := BulkUpdate.positive_of_compile accepted
  have chunks : b.chunks (asked.getD h.settings.defaultChunkSize) = [[row]] := by
    unfold BulkUpdate.chunks
    rw [BulkUpdate.rows_eq_of_compile accepted]
    exact pieces_singleton positive row
  have nonempty : ∀ chunk ∈ [[row]], chunk ≠ [] :=
    List.forall_mem_singleton.mpr (List.cons_ne_nil row [])
  obtain ⟨same, next⟩ := overChunks_outcome nonempty {} ready
  have alone : (BulkReport.overChunks b.chunkAlone {} [[row]]).outcome db =
      ((((b.rowChange row).bracketed b.table).outcome db).1.map (BulkReport.mk 1),
        (((b.rowChange row).bracketed b.table).outcome db).2) := by
    unfold BulkReport.overChunks BulkUpdate.chunkAlone
    rw [BulkUpdate.rowsChange_singleton, Attempt.outcome_bind]
    cases ((b.rowChange row).bracketed b.table).outcome db with
    | mk result reached =>
        cases result with
        | ok n =>
            have total : (({} : BulkReport).adding n) = ⟨1, n⟩ := by
              simp [BulkReport.adding]
            dsimp only
            rw [total]
            rfl
        | error e => rfl
  have run : (bulkUpdate table [row] keys asked).outcome h =
      (BulkReport.overChunks (fun chunk => withConnection fun c => Connection.updateChunk c b chunk)
        {} [[row]]).outcome h := by
    rw [bulkUpdate_tracked, accepted, Tracker.tracked_ok, ← chunks]
    rfl
  rw [alone] at same next
  dsimp only at same next
  rw [run]
  exact ⟨same, next⟩

/-! ## A row and its update -/

namespace BulkUpdate

variable {s : Snapshot} {name : String} {rows : List RowValues} {keys : List String}
  {chunkSize : Nat} {b : BulkUpdate} {row : RowValues}

/-- On a handle that is ready, a bulk update of one row and the update of this row end alike. -/
theorem handle_ends_alike (accepted : compile s name rows keys chunkSize = .ok (some b))
    (listed : row ∈ rows) (unreserved : orKey ∉ keys) (room : keys.length + 1 ≠ Sql.greatestDepth)
    (stored : b.KeysStored db) (current : h.catalog.current = s) {asked : Option Nat}
    (positive : 0 < asked.getD h.settings.defaultChunkSize)
    (batch_ready : Handle.Ready others b.table b.sql db h)
    (single_ready : Handle.Ready others b.table (b.rowUpdate row).statement.sql db h) :
    let batch := (Handle.bulkUpdate name [row] keys asked).outcome h
    let single := (Handle.update name (unkeyed keys row) (keyFilter keys row)).outcome h
    batch.1.toOption = single.1.toOption.map (BulkReport.mk 1) ∧
      batch.2.store.database = single.2.store.database ∧
      (single.1.toOption = none → single.2.store.database = db) := by
  intro batch single
  subst current
  let u := b.rowUpdate row
  have dependable := updateForm_dependable accepted listed unreserved stored room
  obtain ⟨single_ends, single_left⟩ := Handle.update_outcome
    (compile_rowUpdate accepted listed unreserved) dependable single_ready
  obtain ⟨batch_ends, batch_left⟩ :=
    Handle.bulkUpdate_singleton (compile_singleton accepted listed positive) batch_ready
  rw [rowChange_withRows] at batch_ends batch_left
  have alike := outcome_change_rowUpdate (x := { database := db }) accepted listed unreserved
    stored room
  obtain ⟨results, databases⟩ := alike.bracketed b.table
  refine ⟨?_, ?_, fun failed => ?_⟩
  · calc
      batch.1.toOption
          = ((((b.rowChange row).bracketed b.table).outcome db).1.map
              (BulkReport.mk 1)).toOption := congrArg Except.toOption batch_ends
      _ = (((b.rowChange row).bracketed b.table).outcome db).1.toOption.map (BulkReport.mk 1) :=
            toOption_map _ _
      _ = ((u.change.bracketed b.table).outcome db).1.toOption.map (BulkReport.mk 1) :=
            congrArg _ results.symm
      _ = single.1.toOption.map (BulkReport.mk 1) :=
            congrArg (fun result => result.toOption.map (BulkReport.mk 1)) single_ends.symm
  · calc
      batch.2.store.database
          = (((b.rowChange row).bracketed b.table).outcome db).2 := batch_left.store.database
      _ = ((u.change.bracketed b.table).outcome db).2 := databases.symm
      _ = single.2.store.database := single_left.store.database.symm
  · have undone : ((u.change.bracketed b.table).outcome db).1.toOption = none :=
      (congrArg Except.toOption single_ends.symm).trans failed
    exact single_left.store.database.trans (u.change.bracketed_failed b.table db undone)

/-- A row of an accepted bulk update means what the update means that sets its other columns where
the key columns have its values; this update is accepted, its filter asking for the keys one by one.

Where the key columns are stored, as they are if the catalog describes the store, the row and the
update do the same to any content, and on a handle that is ready they report as many stored rows and
leave the same database, or both fail and leave the database as it was. Only at one number of keys
they part: there the store refuses the update, whose conditions it finds too deep. -/
theorem row_is_update (accepted : compile s name rows keys chunkSize = .ok (some b))
    (listed : row ∈ rows) (unreserved : orKey ∉ keys) :
    let u := b.rowUpdate row
    Update.compile s name (unkeyed keys row) (keyFilter keys row) = .ok u ∧
      (∀ db, s.Describes db → b.KeysStored db) ∧
      (keys.length + 1 ≠ Sql.greatestDepth →
        (∀ x : Content, b.KeysStored x.database →
          Change.AlikeUpToPlace (u.change.outcome x) ((b.rowChange row).outcome x)) ∧
        ∀ others db h asked, b.KeysStored db → h.catalog.current = s →
          0 < asked.getD h.settings.defaultChunkSize →
          Handle.Ready others b.table b.sql db h →
          Handle.Ready others b.table u.statement.sql db h →
          let batch := (Handle.bulkUpdate name [row] keys asked).outcome h
          let single := (Handle.update name (unkeyed keys row) (keyFilter keys row)).outcome h
          batch.1.toOption = single.1.toOption.map (BulkReport.mk 1) ∧
            batch.2.store.database = single.2.store.database ∧
            (single.1.toOption = none → single.2.store.database = db)) ∧
      (keys.length + 1 = Sql.greatestDepth →
        Sql.requireShallow b.depth = .ok () ∧
          ∀ x, ∃ fault, u.change.outcome x = (.error fault, x)) := by
  intro u
  refine ⟨compile_rowUpdate accepted listed unreserved, ?described, ?alike, ?full⟩
  case described => exact fun _ => keysStored_of_describes accepted
  case alike =>
    intro room
    constructor
    · intro x stored
      exact outcome_change_rowUpdate accepted listed unreserved stored room
    · intro others db h asked stored current positive
      exact handle_ends_alike accepted listed unreserved room stored current positive
  case full =>
    intro full
    obtain ⟨_, _, keyed, _⟩ := compile_eq_ok_iff.mp accepted
    obtain ⟨_, _, _, _, rfl, _⟩ := of_compile accepted
    constructor
    · exact if_neg (Nat.not_lt.mpr (Nat.le_of_eq full))
    · exact outcome_change_of_full keyed full row

/-! ## A pet that is found by its number and its owner -/

def updatedByRow (h : Handle) (keys : List String) (row : RowValues) :
    Except Error BulkReport × Handle :=
  (Handle.bulkUpdate "pets" [row] keys (some 1)).outcome h

def updatedAlone (h : Handle) (keys : List String) (row : RowValues) : Except Error Nat × Handle :=
  (Handle.update "pets" (unkeyed keys row) (keyFilter keys row)).outcome h

def petUpdate : BulkUpdate where
  table := "pets"
  assignments := [⟨"name", false, "name"⟩]
  keys := ["id", "owner"]
  rows := [petOf (.text "Max") 1]

theorem row_is_update_kennel :
    compile kennelHandle.catalog.current "pets" petUpdate.rows petUpdate.keys 1 =
        .ok (some petUpdate) ∧
      petOf (.text "Max") 1 ∈ petUpdate.rows ∧ orKey ∉ petUpdate.keys ∧
      petUpdate.keys.length + 1 ≠ Sql.greatestDepth ∧ petUpdate.KeysStored (kennel "Rex") ∧
      (updatedByRow kennelHandle petUpdate.keys (petOf (.text "Max") 1)).1.toOption =
        some ⟨1, 1⟩ ∧
      (updatedByRow kennelHandle petUpdate.keys (petOf (.text "Max") 1)).2.store.database =
        (updatedAlone kennelHandle petUpdate.keys (petOf (.text "Max") 1)).2.store.database ∧
      (updatedAlone kennelHandle petUpdate.keys (petOf (.text "Max") 1)).2.store.database =
        kennel "Max" := by
  have accepted : compile kennelHandle.catalog.current "pets" petUpdate.rows petUpdate.keys 1 =
      .ok (some petUpdate) := by decide +kernel
  have listed : petOf (.text "Max") 1 ∈ petUpdate.rows := List.mem_singleton_self _
  have unreserved : orKey ∉ petUpdate.keys := by decide
  have room : petUpdate.keys.length + 1 ≠ Sql.greatestDepth := by decide
  have stored : petUpdate.KeysStored (kennel "Rex") := by decide
  have changed : (updatedAlone kennelHandle petUpdate.keys (petOf (.text "Max") 1)).1 = .ok 1 ∧
      (updatedAlone kennelHandle petUpdate.keys (petOf (.text "Max") 1)).2.store.database =
        kennel "Max" := by decide +kernel
  obtain ⟨_, _, alike, _⟩ := row_is_update accepted listed unreserved
  obtain ⟨results, databases, _⟩ := (alike room).2 [] (kennel "Rex") kennelHandle (some 1) stored
    rfl Nat.one_pos (ready_kennelHandle _) (ready_kennelHandle _)
  unfold updatedByRow updatedAlone at *
  rw [changed.1] at results
  exact ⟨accepted, listed, unreserved, room, stored, results, databases, changed.2⟩

/-! ## Where rows and updates part -/

/-- The kennel with a catalog that describes a column which the pets do not have any more. -/
def staleKennel : Handle where
  engine := .blocking
  settings := .ofConnection "file:kennel?mode=memory&cache=shared"
  catalog := .ofSnapshot (.ofList ((kennel "Rex").tables.map fun t =>
    { t.definition.describe with
      columns := t.definition.describe.columns ++ [{ name := "chip", declared := "TEXT" }] }))
  store := { database := kennel "Rex" }

/-- The row that gives a name to the pets whose chip has a certain text. -/
def chipped : RowValues := .ofList [("chip", .text "chip"), ("name", .text "Max")]

/-- The bulk update that asks for the number of a pet again and again. -/
def insistent (n : Nat) : BulkUpdate where
  table := "pets"
  assignments := [⟨"name", false, "name"⟩, ⟨"owner", false, "owner"⟩]
  keys := List.replicate n "id"
  rows := [petOf (.text "Max") 1]

variable {n : Nat}

theorem compile_insistent (asks : 0 < n) :
    compile kennelHandle.catalog.current "pets" (insistent n).rows (insistent n).keys 1 =
      .ok (some (insistent n)) := by
  have asked {key : String} (member : key ∈ (insistent n).keys) : key = "id" :=
    List.eq_of_mem_replicate member
  have others : ((petOf (.text "Max") 1).keys.filter fun key => !(insistent n).keys.contains key) =
      ["name", "owner"] := by
    have contains (key : String) : (insistent n).keys.contains key = (key == "id") := by
      rw [Bool.eq_iff_iff, List.contains_iff_mem, beq_iff_eq]
      simp [insistent, Nat.ne_of_gt asks]
    simp only [contains]
    decide +kernel
  refine compile_eq_ok_iff.mpr ⟨_, rfl, ?keyed, Nat.one_pos, ?known, ?accepted⟩
  case keyed => simpa [insistent] using Nat.ne_of_gt asks
  case known =>
    intro key member
    rw [asked member]
    rfl
  case accepted =>
    refine .rows ?held (List.forall_mem_nil _) ?filled ?assigned ?addressed
    case held =>
      intro key member
      rw [asked member]
      decide +kernel
    case filled =>
      rw [others]
      exact List.cons_ne_nil _ _
    case assigned =>
      rw [others]
      rfl
    case addressed =>
      rintro row listed key member
      rw [asked member, List.mem_singleton.mp listed]
      decide +kernel

theorem prepareBulk_insistent (asks : 0 < n) (room : n + 1 ≤ Sql.greatestDepth) :
    (kennel "Rex").prepareBulk (insistent n) = .ok () := by
  have whole : Sql.requireWhole (insistent n).sql = .ok () := by
    obtain ⟨_, _, orderly⟩ := orderly_of_compile (compile_insistent asks)
    have unbroken : Sql.Fragment.broken? (insistent n).fragments = none := by
      apply List.find?_eq_none.mpr
      intro name member
      rw [names_fragments] at member
      have few : name ∈ ["pets", "name", "owner", "id"] := by
        simpa [insistent, Assignment.fragments, Sql.Fragment.names, Nat.ne_of_gt asks] using member
      have plain : ∀ name ∈ ["pets", "name", "owner", "id"], ¬ Sql.hasNul name = true := by
        decide +kernel
      exact plain name few
    have shown := Sql.requireWhole_render orderly
    rw [unbroken] at shown
    exact mapError_eq_ok_iff.mp shown
  have shallow : Sql.requireShallow (insistent n).depth = .ok () := by
    have deep : (insistent n).depth = n + 1 := by simp [depth, insistent]
    rw [deep]
    exact if_neg (Nat.not_lt.mpr room)
  have matched : (do
      let t ← (kennel "Rex").target "pets"
      Database.requireAssigned t (insistent 1).assignments
      (Concern.ofUpdate (kennel "Rex") t ((insistent 1).assignments.map (·.column))).checkAll
        (kennel "Rex") t : Except Fault Unit) = .ok () := by
    decide +kernel
  exact bind_eq_ok_iff.mpr ⟨(), whole, bind_eq_ok_iff.mpr ⟨(), shallow, matched⟩⟩

/-- The number is asked for as often as the store can read it, and the pet gets its name. -/
theorem outcome_insistent (asks : 0 < n) (room : n + 1 ≤ Sql.greatestDepth) :
    ((insistent n).rowChange (petOf (.text "Max") 1)).outcome { database := kennel "Rex" } =
      (.ok 1, { database := kennel "Max" }) := by
  obtain ⟨more, rfl⟩ := Nat.exists_eq_succ_of_ne_zero (Nat.ne_of_gt asks)
  unfold rowChange
  rw [Attempt.outcome_bind, Attempt.outcome_of, prepareBulk_insistent asks room]
  dsimp only
  unfold Change.updateKeyed
  dsimp only
  have once : (Change.updateWhere "pets" ((insistent 1).assignments.map fun a => a.map fun key =>
      Cell.ofValue (valueAt (petOf (.text "Max") 1) key)) fun _ t => t.rows.filter fun stored =>
        (Database.keyTruth t stored "id" (.int 1)).holds).outcome { database := kennel "Rex" } =
      (.ok 1, { database := kennel "Max" }) := by
    decide +kernel
  apply (Change.updateWhere_congr _).trans once
  intro t found
  dsimp only
  have truths (stored : StoredRow) : Truth.all ((insistent (more + 1)).keys.map fun key =>
      Database.keyTruth t stored key (valueAt (petOf (.text "Max") 1) key)) =
        Database.keyTruth t stored "id" (.int 1) := by
    unfold insistent
    rw [List.map_replicate, Truth.all_replicate]
    rfl
  simp only [truths]
  apply StoredTable.inUpdateOrder_of_length_le
  have single : ∀ t ∈ (kennel "Rex").table? "pets", t.rows.length ≤ 1 := by decide +kernel
  exact Nat.le_trans (List.length_filter_le _ _) (single t found)

/-- Where a key column is not stored, the update is refused, but in the statement of the bulk update
the quoted name stands for a text, to which all pets compare equal. And where the store can just
read the bulk update, it is the update that it cannot read. -/
theorem rows_part_from_updates :
    ((updatedAlone staleKennel ["chip"] chipped).1 =
        .error (.ofFault "pets" (.located (.noSuchColumn "pets.chip")
          "UPDATE \"pets\" SET \"name\" = ? WHERE \"pets\".\"chip\" = ?" 35)) ∧
      (updatedAlone staleKennel ["chip"] chipped).2.store.database = kennel "Rex" ∧
      (updatedByRow staleKennel ["chip"] chipped).1 = .ok ⟨1, 1⟩ ∧
      (updatedByRow staleKennel ["chip"] chipped).2.store.database = kennel "Max") ∧
      let most := insistent (Sql.greatestDepth - 1)
      compile kennelHandle.catalog.current "pets" most.rows most.keys 1 = .ok (some most) ∧
        (most.rowChange (petOf (.text "Max") 1)).outcome { database := kennel "Rex" } =
          (.ok 1, { database := kennel "Max" }) ∧
        ∃ fault, (most.rowUpdate (petOf (.text "Max") 1)).change.outcome
          { database := kennel "Rex" } = (.error fault, { database := kennel "Rex" }) := by
  have asks : 0 < Sql.greatestDepth - 1 := by decide
  refine ⟨by decide +kernel, compile_insistent asks, outcome_insistent asks (Nat.le_refl _), ?_⟩
  obtain ⟨_, _, keyed, _⟩ := compile_eq_ok_iff.mp (compile_insistent asks)
  apply outcome_change_of_full keyed
  unfold insistent
  rw [List.length_replicate]
  rfl

end BulkUpdate

end TableAccess
