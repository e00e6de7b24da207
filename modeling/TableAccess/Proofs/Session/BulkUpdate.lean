import TableAccess.Proofs.Mutation.Compilation
import TableAccess.Proofs.Session.InTime
import TableAccess.Proofs.Session.Lending
import TableAccess.Proofs.Session.Progress
import TableAccess.Proofs.Session.Work

/-!
# Bulk updates of a handle

A bulk update runs its chunks one after the other, each of them a bracket on a connection of its
own. It reports all of them, or ends with the first one that fails: then what the chunks before
it have done stays, and nothing of the others is done.
-/

namespace TableAccess

namespace Handle

variable {others : List Transaction} {db : Database} {h : Handle} {b : BulkUpdate}

/-- Chunks on a handle that is ready end as they do on the content of its store. -/
theorem overChunks_outcome {chunks : List (List RowValues)} (some : ∀ chunk ∈ chunks, chunk ≠ [])
    (report : BulkReport) (ready : Ready others b.table b.sql db h) :
    ((BulkReport.overChunks (fun chunk => withConnection fun c =>
          Connection.updateChunk c b chunk) report chunks).outcome h).1 =
        ((BulkReport.overChunks b.chunkAlone report chunks).outcome db).1 ∧
      Ready others b.table b.sql ((BulkReport.overChunks b.chunkAlone report chunks).outcome db).2
        ((BulkReport.overChunks (fun chunk => withConnection fun c =>
          Connection.updateChunk c b chunk) report chunks).outcome h).2 := by
  induction chunks generalizing report db h with
  | nil => exact ⟨rfl, ready⟩
  | cons chunk rest ih =>
      obtain ⟨nonempty, later⟩ := List.forall_mem_cons.mp some
      obtain ⟨same, next⟩ := withConnection_outcome ready fun c s clear rest =>
        Connection.updateChunk_outcome clear rest nonempty
      unfold BulkReport.overChunks
      rw [Attempt.outcome_bind, Attempt.outcome_bind]
      cases model : (b.chunkAlone chunk).outcome db with
      | mk result reached =>
          rw [model] at same next
          cases run : (withConnection fun c => Connection.updateChunk c b chunk).outcome h with
          | mk result' reached' =>
              rw [run] at same next
              cases same
              cases result with
              | ok affected => exact ih later _ next
              | error e => exact ⟨rfl, next⟩

/-- A bulk update is followed by a tracker while its chunks run. -/
theorem bulkUpdate_tracked {σ : Type} [Machine σ] (h : Handle σ) (table : String)
    (rows : List RowValues) (keys : List String) (asked : Option Nat) :
    (bulkUpdate table rows keys asked).outcome h =
      (Tracker.tracked table .bulkUpdate (BulkUpdate.compile h.catalog.current table rows keys
          (asked.getD h.settings.defaultChunkSize)) fun request =>
        request.elim (pure {}) fun b => BulkReport.overChunks (fun chunk =>
            withConnection fun c => Connection.updateChunk c b chunk) {}
          (b.chunks (asked.getD h.settings.defaultChunkSize))).outcome h := by
  rw [bulkUpdate_eq_blocking]
  refine congrArg (fun next => (Tracker.tracked table .bulkUpdate (BulkUpdate.compile
    h.catalog.current table rows keys (asked.getD h.settings.defaultChunkSize)) next).outcome h)
      (funext fun request => ?_)
  cases request <;> rfl

/-- What becomes of a bulk update, told by its rows applied one after the other.

If all of them succeed and no chunk owes a deferred reference, all of them are applied, whatever
the size of the chunks, and the report counts chunks and stored rows. If a row is the first that
fails, its error is told and the store is left with the chunks before its own; and likewise if a
chunk is the first that owes a reference when its transaction is to be committed. A bulk update
that does not compile leaves everything as it is. -/
theorem bulkUpdate_outcome (h : Handle) (table : String) (rows : List RowValues)
    (keys : List String) (asked : Option Nat) :
    let size := asked.getD h.settings.defaultChunkSize
    let compiled := BulkUpdate.compile h.catalog.current table rows keys size
    let ended := (bulkUpdate table rows keys asked).outcome h
    (∀ e, compiled = .error e → ended = (.error e, h)) ∧
      (compiled = .ok none → rows = [] ∧ ended = (.ok ⟨0, 0⟩, h)) ∧
      ∀ b others db, compiled = .ok (some b) → Ready others b.table b.sql db h →
        (∃ after, Ready others b.table b.sql after ended.2) ∧
          (∀ total y, b.applied db rows = (.ok total, y) →
            (∀ k < (rows.length + size - 1) / size, ¬ b.Owing db size rows k) →
            ended.1 = .ok ⟨(rows.length + size - 1) / size, total⟩ ∧
              ended.2.store.database = y.database) ∧
          (∀ i row total y fault, b.applied db (rows.take i) = (.ok total, y) →
            rows[i]? = some row → (b.applied y.database [row]).1 = .error fault →
            (∀ k < i / size, ¬ b.Owing db size rows k) →
            ended.1 = .error (.ofFault b.table fault) ∧
              ended.2.store.database = (b.applied db (rows.take (size * (i / size)))).2.database) ∧
          ∀ k total y, b.applied db (rows.take (size * (k + 1))) = (.ok total, y) →
            b.Owing db size rows k → (∀ j < k, ¬ b.Owing db size rows j) →
            ended.1 = .error .owing ∧
              ended.2.store.database = (b.applied db (rows.take (size * k))).2.database := by
  intro size compiled ended
  have start : ended = (Tracker.tracked table .bulkUpdate compiled fun request =>
      request.elim (pure {}) fun b => BulkReport.overChunks (fun chunk => withConnection fun c =>
        Connection.updateChunk c b chunk) {} (b.chunks size)).outcome h :=
    bulkUpdate_tracked h table rows keys asked
  refine ⟨fun e refused => ?_, fun accepted => ⟨BulkUpdate.compile_eq_none accepted, ?_⟩, ?_⟩
  · rw [start, refused, Tracker.tracked_error]
  · rw [start, accepted, Tracker.tracked_ok]
    rfl
  · intro b others db accepted ready
    have positive : 0 < size := BulkUpdate.positive_of_compile accepted
    obtain ⟨_, _, _, _, _, given, _⟩ := BulkUpdate.of_compile accepted
    rw [start, accepted, Tracker.tracked_ok]
    dsimp only [Option.elim]
    unfold BulkUpdate.chunks
    rw [given]
    obtain ⟨same, next⟩ := overChunks_outcome
      (fun chunk member => ne_nil_of_mem_pieces positive member) {} ready
    have kept := next.store.database
    rw [same, kept]
    refine ⟨⟨_, next⟩, ?_, ?_, ?_⟩
    · intro total y applied settled
      rw [BulkUpdate.overChunks_eq_ok positive applied settled]
      exact ⟨rfl, rfl⟩
    · intro i row total y fault applied here failed settled
      rw [BulkUpdate.overChunks_eq_error_of_row positive applied here failed settled]
      exact ⟨rfl, rfl⟩
    · intro k total y applied owing settled
      rw [BulkUpdate.overChunks_eq_error_of_owing positive applied owing settled]
      exact ⟨rfl, rfl⟩

end Handle

/-! ## A pet and its owner -/

/-- One pet, whose name has to be known and whose owner is looked up when a transaction ends. -/
def kennel (name : String) : Database where
  tables :=
    [⟨{ name := "owners"
        columns := [{ name := "id", declared := "INTEGER", primaryKey := true }] },
        [⟨1, [.integer 1]⟩]⟩,
      ⟨{ name := "pets"
         columns :=
          [{ name := "id", declared := "INTEGER", primaryKey := true },
            { name := "name", declared := "TEXT", notNull := true },
            { name := "owner"
              declared := "INTEGER"
              reference := some { table := "owners", column := "id", deferred := true } }] },
        [⟨1, [.integer 1, .text name, .integer 1]⟩]⟩]
  views := []

def kennelHandle : Handle where
  engine := .blocking
  settings := .ofConnection "file:kennel?mode=memory&cache=shared"
  catalog := .ofSnapshot (.ofList ((kennel "Rex").tables.map fun t => t.definition.describe))
  store := { database := kennel "Rex" }

def petOf (name : Value) (owner : Int32) : RowValues :=
  .ofList [("id", .int 1), ("name", name), ("owner", .int owner)]

theorem ready_kennelHandle (sql : String) :
    Handle.Ready [] "pets" sql (kennel "Rex") kennelHandle := by
  refine ⟨⟨⟨rfl, rfl, rfl, ?_⟩, ⟨?_, ?_⟩, ?_⟩, .inr ⟨by decide, rfl, ?_⟩⟩
  · exact fun _ member => nomatch member
  · exact fun _ member => nomatch member
  · exact fun _ member => nomatch member
  · exact fun _ member => nomatch member
  · exact fun _ member => nomatch member

/-- What becomes of updates of the pet in chunks of a size. -/
def renamed (rows : List RowValues) (size : Nat) : Except Error BulkReport × Handle :=
  (Handle.bulkUpdate "pets" rows ["id"] (some size)).outcome kennelHandle

theorem bulkUpdate_outcome_kennel :
    ((renamed [petOf (.text "Max") 1, petOf (.text "Bob") 1] 1).1 = .ok ⟨2, 2⟩ ∧
      (renamed [petOf (.text "Max") 1, petOf (.text "Bob") 1] 1).2.store.database =
        kennel "Bob") ∧
    ((renamed [petOf (.text "Max") 1, petOf .null 1] 1).1 =
        .error (.constraintViolation "pets" "NOT NULL constraint failed: pets.name") ∧
      (renamed [petOf (.text "Max") 1, petOf .null 1] 1).2.store.database = kennel "Max") ∧
    (renamed [petOf (.text "Max") 1, petOf (.text "Bob") 9] 1).1 = .error .owing ∧
      (renamed [petOf (.text "Max") 1, petOf (.text "Bob") 9] 1).2.store.database =
        kennel "Max" := by
  refine ⟨?_, ?_, ?_⟩
  · obtain ⟨_, _, chunks⟩ := Handle.bulkUpdate_outcome kennelHandle "pets"
      [petOf (.text "Max") 1, petOf (.text "Bob") 1] ["id"] (some 1)
    obtain ⟨_, all, _, _⟩ := chunks _ [] (kennel "Rex") rfl (ready_kennelHandle _)
    exact all 2 _ rfl (by decide)
  · obtain ⟨_, _, chunks⟩ := Handle.bulkUpdate_outcome kennelHandle "pets"
      [petOf (.text "Max") 1, petOf .null 1] ["id"] (some 1)
    obtain ⟨_, _, failing, _⟩ := chunks _ [] (kennel "Rex") rfl (ready_kennelHandle _)
    exact failing 1 (petOf .null 1) 1 _ (.notNull "pets" "name") rfl rfl rfl (by decide)
  · obtain ⟨_, _, chunks⟩ := Handle.bulkUpdate_outcome kennelHandle "pets"
      [petOf (.text "Max") 1, petOf (.text "Bob") 9] ["id"] (some 1)
    obtain ⟨_, _, _, owing⟩ := chunks _ [] (kennel "Rex") rfl (ready_kennelHandle _)
    exact owing 1 2 _ rfl (by decide) (by decide)

/-- A row can succeed and yet leave its chunk a reference owed, so that the chunk fails; and a row
that would fail in a transaction of its own can succeed in a chunk that mends it. -/
theorem bulkUpdate_owing_kennel :
    (∃ b, BulkUpdate.compile kennelHandle.catalog.current "pets" [petOf (.text "Max") 9] ["id"] 1 =
        .ok (some b) ∧
      (b.applied (kennel "Rex") [petOf (.text "Max") 9]).1 = .ok 1 ∧
      (renamed [petOf (.text "Max") 9] 1).1 = .error (.transactionFailure
        "Failed to commit transaction: FOREIGN KEY constraint failed") ∧
      (renamed [petOf (.text "Max") 9] 1).2.store.database = kennel "Rex") ∧
    ∃ b, BulkUpdate.compile kennelHandle.catalog.current "pets"
        [petOf (.text "Max") 9, petOf (.text "Bob") 1] ["id"] 2 = .ok (some b) ∧
      ((Store.changeAlone (b.rowChange (petOf (.text "Max") 9))).outcome kennelHandle.store).1 =
        .error .foreignKey ∧
      (renamed [petOf (.text "Max") 9, petOf (.text "Bob") 1] 2).1 = .ok ⟨1, 2⟩ ∧
      (renamed [petOf (.text "Max") 9, petOf (.text "Bob") 1] 2).2.store.database =
        kennel "Bob" := by
  constructor
  · exact ⟨_, rfl, rfl, rfl, rfl⟩
  · exact ⟨_, rfl, rfl, rfl, rfl⟩

end TableAccess
