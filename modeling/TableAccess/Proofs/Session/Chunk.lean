import TableAccess.Proofs.Session.Bracket
import TableAccess.Proofs.Store.RowByRow
import TableAccess.Session.Basic
import TableAccess.Store.Statement

/-!
# Chunks of a bulk update

A chunk is a bracket around its rows. On a store at rest it ends as its rows do when they are
applied to the content in a transaction of their own.
-/

namespace TableAccess

/-- A chunk of a bulk update on a database: all of its rows are applied, or none. -/
def BulkUpdate.chunkAlone (b : BulkUpdate) (rows : List RowValues) : Attempt Database Error Nat :=
  (b.rowsChange rows).bracketed b.table

namespace Store

open Attempt (Ends)

variable {others : List Transaction} {c : Nat} {before db : Database} {x : Content} {s : Store}
  {b : BulkUpdate}

theorem bulkForm_sql (b : BulkUpdate) : (bulkForm b).sql = b.sql := by
  unfold bulkForm
  rfl

theorem bulkForm_dependable (b : BulkUpdate) (db : Database) :
    (bulkForm b).Dependable b.table db :=
  (bulkForm_matches b).dependable (fun matched => (Database.of_prepareBulk matched).1)
    Database.failsPlainly_prepareBulk

/-- Rows within a transaction do to the store what they do to its content. -/
theorem updateRows_ends (clear : Clear others c b.table)
    (whole : Sql.requireWhole (bulkForm b).sql = .ok ()) (rows : List RowValues)
    (writing : Writing others (bulkForm b).sql c before x s) :
    (Machine.updateRows c b rows : Attempt Store Fault Nat).Ends s
      (fun n next => ∃ y, (b.rowsChange rows).outcome x = (.ok n, y) ∧
        Writing others (bulkForm b).sql c before y next)
      fun fault next => ∃ y, (b.rowsChange rows).outcome x = (.error fault, y) ∧
        Writing others (bulkForm b).sql c before y next := by
  induction rows generalizing x s with
  | nil => exact .pure ⟨x, rfl, writing⟩
  | cons row rest ih =>
      have first := writeRows_ends (bulkForm_dependable b _) clear writing whole
        (Change.updateKeyed b row) id
      simp only [alone_updateKeyed] at first
      unfold Machine.updateRows
      refine first.bind ?_ ?_
      · rintro changed reached ⟨y, head, held⟩
        refine (ih held).bind ?_ ?_
        · rintro later final ⟨z, tail, kept⟩
          exact .pure ⟨z, BulkUpdate.rowsChange_cons_eq_ok head tail, kept⟩
        · rintro fault final ⟨z, tail, kept⟩
          exact ⟨z, BulkUpdate.rowsChange_cons_eq_error head tail, kept⟩
      · rintro fault reached ⟨y, head, held⟩
        exact ⟨y, BulkUpdate.rowsChange_eq_error_of_head head, held⟩

theorem updateBatch_ends (clear : Clear others c b.table) {rows : List RowValues}
    (some : rows ≠ []) (writing : Writing others (bulkForm b).sql c before x s) :
    (Machine.updateBatch c b rows : Attempt Store Fault Nat).Ends s
      (fun n next => ∃ y, (b.rowsChange rows).outcome x = (.ok n, y) ∧
        Writing others (bulkForm b).sql c before y next)
      fun fault next => ∃ y, (b.rowsChange rows).outcome x = (.error fault, y) ∧
        Writing others (bulkForm b).sql c before y next := by
  have taken : (takeBulk c b).Ends s
      (fun _ next => Writing others (bulkForm b).sql c before x next ∧
        Sql.requireWhole (bulkForm b).sql = .ok ())
      fun fault next => Writing others (bulkForm b).sql c before x next ∧
        (bulkForm b).plan x.database = .error fault :=
    (takeUp_ends (bulkForm_dependable b _) clear writing).bind (fun _ _ held => .pure held)
      fun _ _ refused => refused
  unfold Machine.updateBatch
  refine taken.bind ?_ ?_
  · rintro _ reached ⟨held, whole⟩
    exact updateRows_ends clear whole rows held
  · rintro fault reached ⟨held, refused⟩
    -- the statement is refused before the first row, which would be refused likewise
    obtain ⟨row, rest, rfl⟩ := List.exists_cons_of_ne_nil some
    refine ⟨x, BulkUpdate.rowsChange_eq_error_of_head ?_, held⟩
    rw [← alone_updateKeyed, Form.alone_refused refused]

end Store

namespace Connection

variable {others : List Transaction} {c : Nat} {db : Database} {s : Store} {b : BulkUpdate}

/-- A chunk on a store at rest ends as it does on the content of the store. -/
theorem updateChunk_outcome (clear : Clear others c b.table) (rest : Resting others b.sql db s)
    {rows : List RowValues} (some : rows ≠ []) :
    ((updateChunk c b rows).outcome s).1 = ((b.chunkAlone rows).outcome db).1 ∧
      Resting others b.sql ((b.chunkAlone rows).outcome db).2
        ((updateChunk c b rows).outcome s).2 := by
  rw [← Store.bulkForm_sql] at rest ⊢
  exact inTransaction_outcome clear rest fun entered writing =>
    Store.updateBatch_ends clear some writing

end Connection

end TableAccess
