import TableAccess.Proofs.Mutation.Pieces
import TableAccess.Proofs.Session.Chunk

/-!
# Chunks one after the other

How far a bulk update gets on a database: through the chunks before the first one that fails,
be it that one of its rows fails or that its transaction cannot be committed.
-/

namespace TableAccess

theorem BulkReport.overChunks_append {σ : Type} (run : List RowValues → Attempt σ Error Nat)
    (report : BulkReport) (first second : List (List RowValues)) :
    overChunks run report (first ++ second) =
      (overChunks run report first >>= fun reached => overChunks run reached second) := by
  induction first generalizing report with
  | nil => simp only [List.nil_append, overChunks, pure_bind]
  | cons chunk rest ih => simp only [List.cons_append, overChunks, ih, bind_assoc]

namespace BulkUpdate

variable {b : BulkUpdate} {db : Database} {size k : Nat} {rows : List RowValues}

def chunkOf (size : Nat) (rows : List RowValues) (k : Nat) : List RowValues :=
  (rows.drop (size * k)).take size

def databaseBefore (b : BulkUpdate) (db : Database) (size : Nat) (rows : List RowValues)
    (k : Nat) : Database :=
  (b.applied db (rows.take (size * k))).2.database

/-- A chunk leaves a reference owed that is to be checked at the end of its transaction. -/
def Owing (b : BulkUpdate) (db : Database) (size : Nat) (rows : List RowValues) (k : Nat) : Prop :=
  0 < (b.applied (b.databaseBefore db size rows k) (chunkOf size rows k)).2.owed

instance (b : BulkUpdate) (db : Database) (size : Nat) (rows : List RowValues) (k : Nat) :
    Decidable (b.Owing db size rows k) :=
  inferInstanceAs (Decidable (_ < _))

theorem take_succ_chunk (size : Nat) (rows : List RowValues) (k : Nat) :
    rows.take (size * (k + 1)) = rows.take (size * k) ++ chunkOf size rows k := by
  rw [Nat.mul_succ, List.take_add]
  rfl

theorem chunkAlone_eq_error {fault : Fault} (failed : (b.applied db rows).1 = .error fault) :
    (b.chunkAlone rows).outcome db = (.error (.ofFault b.table fault), db) := by
  cases ended : b.applied db rows with
  | mk result reached =>
      rw [ended] at failed
      cases failed
      exact Change.bracketed_eq_error ended

/-- Chunks whose rows succeed and that owe nothing are done. -/
theorem overChunks_done (positive : 0 < size) {total : Nat} {y : Content}
    (within : k ≤ (pieces size rows).length)
    (applied : b.applied db (rows.take (size * k)) = (.ok total, y))
    (settled : ∀ j < k, ¬ b.Owing db size rows j) :
    (BulkReport.overChunks b.chunkAlone {} ((pieces size rows).take k)).outcome db =
      (.ok ⟨k, total⟩, y.database) := by
  induction k generalizing total y with
  | zero =>
      rw [Nat.mul_zero] at applied
      cases applied
      rfl
  | succ k ih =>
      rw [take_succ_chunk] at applied
      obtain ⟨changed, later, reached, last, before, chunk, rfl, final⟩ := of_applied_append applied
      have done := ih (Nat.le_of_succ_le within) before fun j less =>
        settled j (Nat.lt_succ_of_lt less)
      have found : (pieces size rows)[k]? = some (chunkOf size rows k) := by
        rw [getElem?_pieces positive]
        exact if_pos ((lt_length_pieces positive rows k).mp within)
      have free : ¬ 0 < last.owed := by
        have owing := settled k (Nat.lt_succ_self k)
        unfold Owing databaseBefore at owing
        rw [before, chunk] at owing
        exact owing
      have alone : (b.chunkAlone (chunkOf size rows k)).outcome reached.database =
          (.ok later, last.database) := Change.bracketed_eq_ok chunk free
      rw [List.take_add_one, found, BulkReport.overChunks_append, Attempt.outcome_bind, done]
      dsimp only [Option.toList]
      unfold BulkReport.overChunks
      rw [Attempt.outcome_bind, alone, ← final]
      rfl

/-- The chunk that fails ends the run; what the chunks before it have done stays. -/
theorem overChunks_stopped (positive : 0 < size) {total : Nat} {y : Content} {e : Error}
    (within : size * k < rows.length)
    (applied : b.applied db (rows.take (size * k)) = (.ok total, y))
    (settled : ∀ j < k, ¬ b.Owing db size rows j)
    (failed : (b.chunkAlone (chunkOf size rows k)).outcome y.database = (.error e, y.database)) :
    (BulkReport.overChunks b.chunkAlone {} (pieces size rows)).outcome db =
      (.error e, y.database) := by
  have found : (pieces size rows)[k]? = some (chunkOf size rows k) := by
    rw [getElem?_pieces positive]
    exact if_pos within
  obtain ⟨inside, chunk⟩ := List.getElem?_eq_some_iff.mp found
  have done := overChunks_done positive (Nat.le_of_lt inside) applied settled
  have parts : pieces size rows = (pieces size rows).take k ++
      chunkOf size rows k :: (pieces size rows).drop (k + 1) := by
    rw [← chunk, ← List.drop_eq_getElem_cons inside, List.take_append_drop]
  rw [parts, BulkReport.overChunks_append, Attempt.outcome_bind, done]
  dsimp only
  unfold BulkReport.overChunks
  rw [Attempt.outcome_bind, failed]

/-- If all rows succeed and no chunk owes anything, all of them are done. -/
theorem overChunks_eq_ok (positive : 0 < size) {total : Nat} {y : Content}
    (applied : b.applied db rows = (.ok total, y))
    (settled : ∀ k < (rows.length + size - 1) / size, ¬ b.Owing db size rows k) :
    (BulkReport.overChunks b.chunkAlone {} (pieces size rows)).outcome db =
      (.ok ⟨(rows.length + size - 1) / size, total⟩, y.database) := by
  rw [← length_pieces positive] at settled ⊢
  have all : rows.take (size * (pieces size rows).length) = rows := by
    refine List.take_of_length_le (Nat.le_of_not_lt fun less => ?_)
    exact Nat.lt_irrefl _ ((lt_length_pieces positive rows _).mpr less)
  have done := overChunks_done positive (Nat.le_refl _) (all.symm ▸ applied) settled
  rw [List.take_length] at done
  exact done

/-- If a row fails, nothing of its chunk stays done. -/
theorem overChunks_eq_error_of_row (positive : 0 < size) {i total : Nat} {row : RowValues}
    {y : Content} {fault : Fault} (applied : b.applied db (rows.take i) = (.ok total, y))
    (here : rows[i]? = some row) (failed : (b.applied y.database [row]).1 = .error fault)
    (settled : ∀ k < i / size, ¬ b.Owing db size rows k) :
    (BulkReport.overChunks b.chunkAlone {} (pieces size rows)).outcome db =
      (.error (.ofFault b.table fault), b.databaseBefore db size rows (i / size)) := by
  have place : size * (i / size) + i % size = i := Nat.div_add_mod i size
  have short : i % size < size := Nat.mod_lt i positive
  have bound : i < rows.length := (List.getElem?_eq_some_iff.mp here).1
  -- the rows of the chunk before the one that fails
  have start : rows.take i =
      rows.take (size * (i / size)) ++ (chunkOf size rows (i / size)).take (i % size) := by
    unfold chunkOf
    rw [List.take_take, Nat.min_eq_left (Nat.le_of_lt short), ← List.take_add, place]
  have found : (chunkOf size rows (i / size))[i % size]? = some row := by
    unfold chunkOf
    rw [List.getElem?_take_of_lt short, List.getElem?_drop, place, here]
  have front : (chunkOf size rows (i / size)).take (i % size + 1) =
      (chunkOf size rows (i / size)).take (i % size) ++ [row] := by
    rw [List.take_add_one, found]
    rfl
  rw [start] at applied
  obtain ⟨changed, later, reached, last, before, middle, rfl, final⟩ := of_applied_append applied
  have broken : (b.applied reached.database (chunkOf size rows (i / size))).1 = .error fault := by
    rw [← List.take_append_drop (i % size + 1) (chunkOf size rows (i / size)), front]
    refine applied_append_error _ ?_
    rw [(applied_append _ middle).1, final, failed]
    rfl
  have within : size * (i / size) < rows.length := by omega
  have kept : b.databaseBefore db size rows (i / size) = reached.database := by
    unfold databaseBefore
    rw [before]
  rw [kept]
  exact overChunks_stopped positive within before settled (chunkAlone_eq_error broken)

/-- If a chunk owes a reference at its end, nothing of it stays done. -/
theorem overChunks_eq_error_of_owing (positive : 0 < size) {total : Nat} {y : Content}
    (applied : b.applied db (rows.take (size * (k + 1))) = (.ok total, y))
    (owing : b.Owing db size rows k) (settled : ∀ j < k, ¬ b.Owing db size rows j) :
    (BulkReport.overChunks b.chunkAlone {} (pieces size rows)).outcome db =
      (.error .owing, b.databaseBefore db size rows k) := by
  rw [take_succ_chunk] at applied
  obtain ⟨changed, later, reached, last, before, chunk, rfl, _⟩ := of_applied_append applied
  have kept : b.databaseBefore db size rows k = reached.database := by
    unfold databaseBefore
    rw [before]
  have owed : 0 < last.owed := by
    unfold Owing at owing
    rw [kept, chunk] at owing
    exact owing
  have within : size * k < rows.length := by
    refine Nat.lt_of_not_le fun beyond => ?_
    have empty : chunkOf size rows k = [] := by
      unfold chunkOf
      rw [List.drop_of_length_le beyond, List.take_nil]
    rw [empty] at chunk
    cases chunk
    exact Int.lt_irrefl 0 owed
  have failed : (b.chunkAlone (chunkOf size rows k)).outcome reached.database =
      (.error .owing, reached.database) := Change.bracketed_eq_owing chunk owed
  rw [kept]
  exact overChunks_stopped positive within before settled failed

end BulkUpdate

end TableAccess
