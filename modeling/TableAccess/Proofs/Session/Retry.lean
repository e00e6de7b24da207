import TableAccess.Proofs.Session.BulkUpdate
import TableAccess.Proofs.Session.Scope
import TableAccess.Proofs.Store.LastWriter

/-!
# Bulk updates that are run again

A bulk update that replaces cells can be run again after it was stopped: whichever of its chunks
were committed before, in the end every stored row carries the values of the last row that addresses
it, and all else is as it was before the first run. This needs that the table is plain and that no
column is set under one name and looked up as a key under another, which is so in every table that
the catalog describes as it is stored.
-/

namespace TableAccess

open Attempt (Ends)
open Machine (Aspect Laws Transacts)

/-! ## Chunks that stop -/

/-- Chunks that end with an error have been run up to the one that gives it. -/
theorem BulkReport.of_overChunks_error {σ : Type} {run : List RowValues → Attempt σ Error Nat}
    {report : BulkReport} {chunks : List (List RowValues)} {s t : σ} {e : Error}
    (stopped : (overChunks run report chunks).outcome s = (.error e, t)) :
    ∃ k chunk done reached, chunks[k]? = some chunk ∧
      (overChunks run report (chunks.take k)).outcome s = (.ok done, reached) ∧
      (run chunk).outcome reached = (.error e, t) := by
  induction chunks generalizing report s with
  | nil => cases stopped
  | cons chunk rest ih =>
      rw [overChunks, Attempt.outcome_bind] at stopped
      cases first : (run chunk).outcome s with
      | mk result next =>
          rw [first] at stopped
          cases result with
          | error fault =>
              cases stopped
              exact ⟨0, chunk, report, s, rfl, rfl, first⟩
          | ok affected =>
              obtain ⟨k, failing, done, reached, here, before, failed⟩ := ih stopped
              refine ⟨k + 1, failing, done, reached, here, ?_, failed⟩
              rw [List.take_succ_cons, overChunks, Attempt.outcome_bind, first]
              exact before

namespace BulkUpdate

/-- Whether a bulk update compiles does not depend on the size of its chunks. -/
theorem compile_of_positive {snapshot : Snapshot} {table : String} {rows : List RowValues}
    {keys : List String} {size other : Nat} {b : Option BulkUpdate}
    (compiled : compile snapshot table rows keys size = .ok b) (positive : 0 < other) :
    compile snapshot table rows keys other = .ok b := by
  obtain ⟨t, found, rest⟩ := bind_eq_ok_iff.mp compiled
  obtain ⟨keyed, rest⟩ := refuse_eq_ok_iff.mp rest
  obtain ⟨_, rest⟩ := refuse_eq_ok_iff.mp rest
  exact bind_eq_ok_iff.mpr ⟨t, found, refuse_eq_ok_iff.mpr ⟨keyed,
    refuse_eq_ok_iff.mpr ⟨Nat.ne_of_gt positive, rest⟩⟩⟩

/-- Entries that are columns and nothing more replace the cells of these. -/
theorem assignments_of_columns {snapshot : Snapshot} {table : String} {rows : List RowValues}
    {keys : List String} {size : Nat} {b : BulkUpdate} {described : Table}
    (compiled : compile snapshot table rows keys size = .ok (some b))
    (found : snapshot.resolve table = .ok described)
    (columns : ∀ row ∈ rows, ∀ name ∈ row.keys, name ∉ keys → described.hasColumn name = true) :
    ∀ row ∈ rows, b.assignments =
      (row.keys.filter fun name => !keys.contains name).map fun name => ⟨name, false, name⟩ := by
  obtain ⟨t, shared, resolved, _, _, _, even, _, assigned⟩ := of_compile compiled
  cases found.symm.trans resolved
  intro row member
  obtain rfl := even row member
  have known : ∀ name ∈ row.keys.filter fun name => !keys.contains name,
      described.hasColumn name = true := fun name listed => by
    obtain ⟨held, free⟩ := List.mem_filter.mp listed
    exact columns row member name held (by simpa using free)
  rw [Assignment.ofKeys_columns known] at assigned
  exact (Except.ok.inj assigned).symm

theorem plain_of_assignments {rows : List RowValues} {b : BulkUpdate}
    {names : RowValues → List String} (nonempty : rows ≠ [])
    (assigned : ∀ row ∈ rows, b.assignments = (names row).map fun name => ⟨name, false, name⟩) :
    b.Plain := by
  obtain ⟨row, _, rfl⟩ := List.exists_cons_of_ne_nil nonempty
  rw [Plain, assigned row List.mem_cons_self]
  exact List.forall_mem_map.mpr fun _ _ => rfl

end BulkUpdate

namespace Handle

variable {σ : Type} [Machine σ] {v : Aspect σ} {steady plain : String → Prop} {lent : List Nat}
  {h : Handle σ} {db : Database} {b : BulkUpdate}

def updateChunk (b : BulkUpdate) (chunk : List RowValues) : Attempt (Handle σ) Error Nat :=
  withConnection fun c => Connection.updateChunk c b chunk

/-- A bulk update that is stopped after some of its chunks. -/
def stoppedAfter (b : BulkUpdate) (size k : Nat) : Attempt (Handle σ) Error BulkReport :=
  BulkReport.overChunks (updateChunk b) {} ((b.chunks size).take k)

variable (laws : Laws v steady plain)

include laws

theorem updateChunk_after (settled : Settled v lent db h) (clear : plain b.table)
    {chunk : List RowValues} (nonempty : chunk ≠ []) :
    (updateChunk b chunk : Attempt (Handle σ) Error Nat).Ends h
      (fun _ next => ∃ y, RowByRow b.rowChange chunk { database := db } y ∧
        After v lent h y.database next)
      fun _ next => After v lent h db next := by
  refine (bracket_after (q := fun _ y => RowByRow b.rowChange chunk { database := db } y)
    laws.toTransacts settled .immediate fun c s known within => ?_).mono ?_ fun _ _ kept => kept
  · refine (Ends.renamed (laws.updateBatch_within known clear nonempty within)).mono ?_ ?_
    · exact fun _ _ done => done
    · exact fun _ _ ⟨y, _, held⟩ => ⟨y, held⟩
  · exact fun _ _ ⟨y, done, _, after⟩ => ⟨y, done, after⟩

/-- Chunks one after the other, each in a transaction of its own, come to what their rows come
to. -/
theorem overChunks_after {chunks : List (List RowValues)} (settled : Settled v lent db h)
    (clear : plain b.table) (nonempty : ∀ chunk ∈ chunks, chunk ≠ []) (report : BulkReport) :
    (BulkReport.overChunks (updateChunk b) report chunks : Attempt (Handle σ) Error _).Ends h
      (fun _ next => ∃ y, RowByRow b.rowChange chunks.flatten { database := db } y ∧
        After v lent h y.database next)
      fun _ next => ∃ later, After v lent h later next := by
  induction chunks generalizing report h db with
  | nil => exact .pure ⟨_, .none _, settled.after⟩
  | cons chunk rest ih =>
      obtain ⟨first, later⟩ := List.forall_mem_cons.mp nonempty
      unfold BulkReport.overChunks
      refine (updateChunk_after laws settled clear first).bind ?_ fun _ _ after => ⟨_, after⟩
      rintro affected reached ⟨y, done, after⟩
      refine (ih (after.settled settled.knows) later (report.adding affected)).mono ?_ ?_
      · rintro _ next ⟨z, run, last⟩
        obtain ⟨w, run, same⟩ :=
          run.indifferent b.indifferent_rowChange (rfl : _ = y.database)
        exact ⟨w, done.append run, same ▸ after.trans last⟩
      · rintro _ _ ⟨_, last⟩
        exact ⟨_, after.trans last⟩

end Handle

/-! ## What is left behind -/

/-- Two databases that hold the same rows in the same tables, in whatever order. -/
structure Database.SameContent (db other : Database) : Prop where
  tables : List.Forall₂ (fun t t' => t.definition = t'.definition ∧ t.rows.Perm t'.rows)
    db.tables other.tables
  views : db.views = other.views

/-- A database after rows of a bulk update: every stored row of its table carries the values of the
last row that addresses it, if there is one, and all else is as it was. -/
def BulkUpdate.Rewritten (b : BulkUpdate) (rows : List RowValues) (db later : Database) : Prop :=
  ∃ t r, db.table? b.table = some t ∧ later = db.replaceTable { t with rows := r } ∧
    r.Perm (t.rows.map (b.settled t rows)) ∧
    ∀ row ∈ t.rows, b.Carries t rows row (b.settled t rows row)

namespace BulkUpdate

variable {b : BulkUpdate} {rows first : List RowValues} {db one two : Database} {x y : Content}

/-- What is left behind does not depend on how it came about. -/
theorem Rewritten.sameContent (here : b.Rewritten rows db one) (there : b.Rewritten rows db two) :
    one.SameContent two := by
  obtain ⟨t, r, found, rfl, perm, _⟩ := here
  obtain ⟨t', r', found', rfl, perm', _⟩ := there
  cases found.symm.trans found'
  refine ⟨?_, rfl⟩
  unfold Database.replaceTable
  rw [List.forall₂_map_left_iff, List.forall₂_map_right_iff, List.forall₂_same]
  intro old _
  by_cases named : old.definition.name = t.definition.name
  · simpa [named, StoredTable.name] using perm.trans perm'.symm
  · simp [named, StoredTable.name]

/-- All rows after some of them leave behind what they leave behind alone. -/
theorem rewritten_of_rowByRow (sound : x.database.Sound) (plain : b.Plain) (nonempty : rows ≠ [])
    (spared : ∀ t, x.database.table? b.table = some t → b.SparesKeys t) (subset : first ⊆ rows)
    (run : RowByRow b.rowChange (first ++ rows) x y) :
    b.Rewritten rows x.database y.database := by
  obtain ⟨t, found, known⟩ := known_of_rowByRow sound (by simp [nonempty]) run
  obtain ⟨r, reached, _, accepted, perm⟩ :=
    settled_of_rowByRow sound plain run found (spared t found)
  have whole : t.Sound := sound.tables t (Database.of_table? found).1
  refine ⟨t, r, found, reached, perm.trans (.of_eq ?_), fun row member => ?_⟩
  · exact List.map_congr_left fun row _ => settled_append_of_subset subset row
  · exact carries_settled whole.apart (whole.fits row member) plain known
      fun given listed => accepted row member given (List.mem_append_right first listed)

end BulkUpdate

namespace Handle

variable {σ : Type} [Machine σ] {v : Aspect σ} {steady plain : String → Prop} {lent : List Nat}
  {h : Handle σ} {db : Database} {table : String} {rows : List RowValues} {keys : List String}
  {size : Nat} {b : BulkUpdate}

/-- A bulk update that compiles runs its chunks. -/
theorem bulkUpdate_eq (asked : Option Nat) {again : Nat}
    (compiled : BulkUpdate.compile h.catalog.current table rows keys again = .ok (some b))
    (positive : 0 < asked.getD h.settings.defaultChunkSize) :
    (bulkUpdate table rows keys asked).outcome h =
      (BulkReport.overChunks (updateChunk b) {}
        (b.chunks (asked.getD h.settings.defaultChunkSize))).outcome h := by
  rw [bulkUpdate_tracked, BulkUpdate.compile_of_positive compiled positive, Tracker.tracked_ok]
  rfl

variable (laws : Laws v steady plain)

include laws

/-- A bulk update that succeeds has run all of its rows one after the other. -/
theorem rowByRow_of_bulkUpdate (settled : Settled v lent db h) (clear : plain b.table)
    (compiled : BulkUpdate.compile h.catalog.current table rows keys size = .ok (some b))
    {asked : Option Nat} {report : BulkReport} {final : Handle σ}
    (ended : (bulkUpdate table rows keys asked).outcome h = (.ok report, final)) :
    ∃ y, RowByRow b.rowChange rows { database := db } y ∧ After v lent h y.database final := by
  have positive : 0 < asked.getD h.settings.defaultChunkSize := by
    cases accepted : BulkUpdate.compile h.catalog.current table rows keys
        (asked.getD h.settings.defaultChunkSize) with
    | ok _ => exact BulkUpdate.positive_of_compile accepted
    | error e =>
        rw [bulkUpdate_tracked, accepted, Tracker.tracked_error] at ended
        cases ended
  rw [bulkUpdate_eq asked compiled positive] at ended
  have nonempty : ∀ chunk ∈ b.chunks _, chunk ≠ [] := fun chunk member =>
    ne_nil_of_mem_pieces positive member
  obtain ⟨y, run, after⟩ := (overChunks_after laws settled clear nonempty {}).holds_ok ended
  rw [BulkUpdate.flatten_chunks compiled positive] at run
  exact ⟨y, run, after⟩

/-- A bulk update that is stopped has run the rows of the chunks before. -/
theorem rowByRow_of_stoppedAfter (settled : Settled v lent db h) (clear : plain b.table)
    (compiled : BulkUpdate.compile h.catalog.current table rows keys size = .ok (some b)) {k : Nat}
    {report : BulkReport} {stopped : Handle σ}
    (ended : (stoppedAfter b size k).outcome h = (.ok report, stopped)) :
    ∃ done y, done ⊆ rows ∧ RowByRow b.rowChange done { database := db } y ∧
      After v lent h y.database stopped := by
  have positive := BulkUpdate.positive_of_compile compiled
  obtain ⟨y, run, after⟩ := (overChunks_after laws settled clear (fun chunk member =>
    ne_nil_of_mem_pieces positive (List.mem_of_mem_take member)) {}).holds_ok ended
  refine ⟨_, y, fun row member => ?_, run, after⟩
  obtain ⟨chunk, listed, held⟩ := List.mem_flatten.mp member
  rw [← BulkUpdate.flatten_chunks compiled positive]
  exact List.mem_flatten.mpr ⟨chunk, List.mem_of_mem_take listed, held⟩

/-- A bulk update that ends with an error was stopped before the chunk that gives it. -/
theorem stoppedAfter_of_error (settled : Settled v lent db h) (clear : plain b.table)
    (compiled : BulkUpdate.compile h.catalog.current table rows keys size = .ok (some b))
    {e : Error} {stopped : Handle σ}
    (ended : (bulkUpdate table rows keys (some size)).outcome h = (.error e, stopped)) :
    ∃ k report reached later, (stoppedAfter b size k).outcome h = (.ok report, reached) ∧
      After v lent h later reached ∧ After v lent h later stopped := by
  have positive := BulkUpdate.positive_of_compile compiled
  have nonempty : ∀ chunk ∈ b.chunks size, chunk ≠ [] := fun chunk member =>
    ne_nil_of_mem_pieces positive member
  rw [bulkUpdate_eq (some size) compiled positive] at ended
  obtain ⟨k, chunk, report, reached, here, before, failed⟩ := BulkReport.of_overChunks_error ended
  obtain ⟨y, _, reaching⟩ := (overChunks_after laws settled clear
    (fun chunk member => nonempty chunk (List.mem_of_mem_take member)) {}).holds_ok before
  have after := (updateChunk_after laws (reaching.settled settled.knows) clear
    (nonempty chunk (List.mem_of_getElem? here))).holds_error failed
  exact ⟨k, report, reached, y.database, before, reaching, reaching.trans after⟩

/-- All rows after some of them leave behind what they leave behind alone. -/
theorem rewritten_of_again (whole : db.Sound) (clear : plain b.table)
    (compiled : BulkUpdate.compile h.catalog.current table rows keys size = .ok (some b))
    (replaces : b.Plain) (spared : ∀ t, db.table? b.table = some t → b.SparesKeys t)
    {done : List RowValues} {y : Content} (subset : done ⊆ rows)
    (run : RowByRow b.rowChange done { database := db } y) {others : List Nat}
    {resumed final : Handle σ} (settled : Settled v others y.database resumed)
    (current : resumed.catalog.current = h.catalog.current) {asked : Option Nat}
    {report : BulkReport}
    (ended : (bulkUpdate table rows keys asked).outcome resumed = (.ok report, final)) :
    ∃ left, b.Rewritten rows db left ∧ After v others resumed left final := by
  rw [← current] at compiled
  obtain ⟨z, again, after⟩ := rowByRow_of_bulkUpdate laws settled clear compiled ended
  obtain ⟨w, again, same⟩ := again.indifferent b.indifferent_rowChange (rfl : _ = y.database)
  have rewritten := BulkUpdate.rewritten_of_rowByRow whole replaces
    (BulkUpdate.nonempty_of_compile compiled) spared subset (run.append again)
  exact ⟨w.database, rewritten, same ▸ after⟩

/-- A bulk update of a plain table that replaces cells and leaves its key columns alone may be run
again after it was stopped, on whatever handle has the database, with chunks of any size: it leaves
the store as one run that was not stopped would have. A run that ends with an error is one that was
stopped. The key columns are left alone wherever the catalog describes the table as it is stored. -/
theorem retry_rewrites (settled : Settled v lent db h) (whole : db.Sound) (clear : plain b.table)
    (compiled : BulkUpdate.compile h.catalog.current table rows keys size = .ok (some b))
    (columns : ∀ described, h.catalog.current.resolve table = .ok described →
      ∀ row ∈ rows, ∀ name ∈ row.keys, name ∉ keys → described.hasColumn name = true) :
    (b.keys = keys ∧ ∀ row ∈ rows, b.assignments =
      (row.keys.filter fun name => !keys.contains name).map fun name => ⟨name, false, name⟩) ∧
    (∀ t, db.table? b.table = some t →
      h.catalog.current.resolve table = .ok t.definition.describe → b.SparesKeys t) ∧
    (∀ e stopped, (bulkUpdate table rows keys (some size)).outcome h = (.error e, stopped) →
      ∃ k report reached later, (stoppedAfter b size k).outcome h = (.ok report, reached) ∧
        After v lent h later reached ∧ After v lent h later stopped) ∧
    ((∀ t, db.table? b.table = some t → b.SparesKeys t) →
      (∀ k report stopped, (stoppedAfter b size k).outcome h = (.ok report, stopped) →
        ∃ middle, After v lent h middle stopped ∧
          ∀ (u : Aspect σ) others resumed asked later final, Laws u steady plain →
            Settled u others middle resumed → resumed.catalog.current = h.catalog.current →
            (bulkUpdate table rows keys asked).outcome resumed = (.ok later, final) →
              ∃ left, b.Rewritten rows db left ∧ u.Rest left final.store ∧
                ∀ chosen report once,
                  (bulkUpdate table rows keys chosen).outcome h = (.ok report, once) →
                    ∃ one, v.Rest one once.store ∧ left.SameContent one) ∧
      ∀ asked report once, (bulkUpdate table rows keys asked).outcome h = (.ok report, once) →
        ∃ one, b.Rewritten rows db one ∧ v.Rest one once.store ∧
          ∀ other later twice,
            (bulkUpdate table rows keys other).outcome once = (.ok later, twice) →
              ∃ two, b.Rewritten rows db two ∧ v.Rest two twice.store ∧ two.SameContent one) := by
  obtain ⟨described, _, found, _, keyed, _⟩ := BulkUpdate.of_compile compiled
  have assigned := BulkUpdate.assignments_of_columns compiled found (columns described found)
  have replaces : b.Plain := BulkUpdate.plain_of_assignments
    (BulkUpdate.nonempty_of_compile compiled) assigned
  refine ⟨⟨keyed, assigned⟩, fun t known resolved => ?spares, fun e stopped ended => ?fails,
    fun spared => ?_⟩
  case spares =>
    have apart := (whole.tables t (Database.of_table? known).1).apart
    exact BulkUpdate.sparesKeys_of_describe compiled replaces resolved apart
  case fails => exact stoppedAfter_of_error laws settled clear compiled ended
  have alone {asked : Option Nat} {report : BulkReport} {once : Handle σ}
      (ended : (bulkUpdate table rows keys asked).outcome h = (.ok report, once)) :
      ∃ one, b.Rewritten rows db one ∧ After v lent h one once :=
    rewritten_of_again laws whole clear compiled replaces spared (List.nil_subset _)
      (.none { database := db }) settled rfl ended
  refine ⟨fun k report stopped ended => ?_, fun asked report once ended => ?_⟩
  · obtain ⟨done, y, subset, run, after⟩ :=
      rowByRow_of_stoppedAfter laws settled clear compiled ended
    refine ⟨y.database, after, fun u others resumed asked later final also ready current again => ?_⟩
    obtain ⟨left, rewritten, last⟩ := rewritten_of_again also whole clear compiled replaces spared
      subset run ready current again
    refine ⟨left, rewritten, last.store, fun chosen report once one => ?_⟩
    obtain ⟨whole, same, after⟩ := alone one
    exact ⟨whole, after.store, rewritten.sameContent same⟩
  · obtain ⟨one, rewritten, after⟩ := alone ended
    refine ⟨one, rewritten, after.store, fun other later twice again => ?_⟩
    obtain ⟨y, run, reached⟩ := rowByRow_of_bulkUpdate laws settled clear compiled ended
    obtain ⟨two, last, rest⟩ := rewritten_of_again laws whole clear compiled replaces spared
      (List.Subset.refl _) run (reached.settled settled.knows)
      (congrArg Catalog.current reached.catalog) again
    exact ⟨two, last, rest.store, last.sameContent rewritten⟩

end Handle

/-! ## A pet that is renamed again -/

/-- Two names for the pet, of which the second one counts. -/
def renames : List RowValues := [petOf (.text "Max") 1, petOf (.text "Bob") 1]

def petRenaming : BulkUpdate where
  table := "pets"
  assignments := [⟨"name", false, "name"⟩, ⟨"owner", false, "owner"⟩]
  keys := ["id"]
  rows := renames

theorem retry_rewrites_kennel :
    (kennelWhen "Rex").Settled (kennelView "Rex") [] (kennel "Rex") ∧ (kennel "Rex").Sound ∧
    BulkUpdate.compile kennelHandle.catalog.current "pets" renames ["id"] 1 =
      .ok (some petRenaming) ∧
    ((Handle.stoppedAfter petRenaming 1 1).outcome (kennelWhen "Rex")).2.store.database =
      kennel "Max" ∧
    ((Handle.bulkUpdate "pets" renames ["id"] (some 5)).outcome
      (kennelWhen "Max")).2.store.database = kennel "Bob" ∧
    ∃ left, petRenaming.Rewritten renames (kennel "Rex") left ∧
      (kennelView "Max").Rest left ((Handle.bulkUpdate "pets" renames ["id"] (some 5)).outcome
        (kennelWhen "Max")).2.store := by
  have columns (described : Table)
      (found : kennelHandle.catalog.current.resolve "pets" = .ok described) :
      ∀ row ∈ renames, ∀ name ∈ row.keys, name ∉ ["id"] → described.hasColumn name = true := by
    cases found
    decide
  have compiled : BulkUpdate.compile (kennelWhen "Rex").catalog.current "pets" renames ["id"] 1 =
      .ok (some petRenaming) := rfl
  obtain ⟨_, spares, _, again⟩ := Handle.retry_rewrites (kennelView_laws "Rex")
    (settled_kennelWhen "Rex") (by decide) trivial compiled columns
  have spared : ∀ t, (kennel "Rex").table? "pets" = some t → petRenaming.SparesKeys t :=
    fun t known => spares t known (by cases known; rfl)
  obtain ⟨middle, stopped, resuming⟩ := (again spared).1 1 _ _ rfl
  obtain rfl : kennel "Max" = middle := stopped.store.1.database
  obtain ⟨left, rewritten, rest, _⟩ := resuming (kennelView "Max") [] (kennelWhen "Max") (some 5) _ _
    (kennelView_laws "Max") (settled_kennelWhen "Max") rfl rfl
  exact ⟨settled_kennelWhen "Rex", by decide, compiled, rfl, rfl, left, rewritten, rest⟩

/-! ## A column that is the row number -/

/-- A table with one row, under a catalog that takes the row number for a column beside the one
that is another name for it. -/
def numberedHandle : Handle where
  engine := .blocking
  settings := .ofConnection "file:numbered?mode=memory&cache=shared"
  catalog := .ofSnapshot (.ofList [{
    name := "t"
    columns := [{ name := "id", declared := "INTEGER", primaryKey := true },
      { name := "rowid", declared := "INTEGER" }] }])
  store := { database := {
    tables := [⟨{ name := "t"
                  columns := [{ name := "id", declared := "INTEGER", primaryKey := true },
                    { name := "v", declared := "TEXT" }] },
      [⟨1, [.integer 1, .null]⟩]⟩]
    views := [] } }

/-- The row with a number, looked up by this number, under the key that it is to have. -/
def renumberOf (number key : Int32) : RowValues :=
  .ofList [("rowid", .int number), ("id", .int key)]

/-- The rows of the table after rows of a bulk update, in chunks of one. -/
def renumber (h : Handle) : Except Error BulkReport × Handle :=
  (Handle.bulkUpdate "t" [renumberOf 2 3, renumberOf 1 2] ["rowid"] (some 1)).outcome h

/-- Under such a catalog a bulk update sets what it looks up, and its rows write into one another:
run again, it finds the row that its first run has made. -/
theorem renumbering_again_differs :
    numberedHandle.Sound [] ∧ numberedHandle.store.database.Sound ∧
    (renumber numberedHandle).1 = .ok ⟨2, 1⟩ ∧
    ((renumber numberedHandle).2.store.database.table? "t").map (·.rows) =
      some [⟨2, [.integer 2, .null]⟩] ∧
    (renumber (renumber numberedHandle).2).1 = .ok ⟨2, 1⟩ ∧
    ((renumber (renumber numberedHandle).2).2.store.database.table? "t").map (·.rows) =
      some [⟨3, [.integer 3, .null]⟩] := by
  refine ⟨⟨⟨.nil, ?_⟩, ?_, ?_⟩, by decide, rfl, rfl, by decide +kernel, by decide +kernel⟩
  · exact fun _ member => nomatch member
  · exact fun _ member => nomatch member
  · exact fun _ member => nomatch member

end TableAccess
