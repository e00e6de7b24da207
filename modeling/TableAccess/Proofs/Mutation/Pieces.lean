import TableAccess.Mutation.BulkUpdate

/-!
# Lists in pieces

A list that is cut into pieces of a positive length consists of them, and the piece of an index
is found at a multiple of the length.
-/

namespace TableAccess

variable {α : Type} {size : Nat}

/-- The piece of an index, as long as the bound on the number of pieces is sufficient. -/
theorem getElem?_piecesOf (positive : 0 < size) (fuel : Nat) (items : List α) (k : Nat)
    (enough : items.length ≤ fuel) :
    (piecesOf size fuel items)[k]? =
      if size * k < items.length then some ((items.drop (size * k)).take size) else none := by
  induction fuel generalizing items k with
  | zero =>
      have empty : items = [] := List.eq_nil_of_length_eq_zero (Nat.le_zero.mp enough)
      subst empty
      simp [piecesOf]
  | succ fuel ih =>
      cases items with
      | nil => simp [piecesOf]
      | cons item rest =>
          cases k with
          | zero => simp [piecesOf]
          | succ k =>
              have shorter : ((item :: rest).drop size).length ≤ fuel := by
                rw [List.length_drop]
                simp only [List.length_cons] at enough ⊢
                omega
              have later : size * k < ((item :: rest).drop size).length ↔
                  size * (k + 1) < (item :: rest).length := by
                rw [List.length_drop, Nat.mul_succ]
                omega
              have place : size + size * k = size * (k + 1) := by
                rw [Nat.mul_succ, Nat.add_comm]
              simp only [piecesOf, List.getElem?_cons_succ]
              rw [ih _ k shorter, List.drop_drop, place]
              simp only [later]

theorem getElem?_pieces (positive : 0 < size) (items : List α) (k : Nat) :
    (pieces size items)[k]? =
      if size * k < items.length then some ((items.drop (size * k)).take size) else none :=
  getElem?_piecesOf positive items.length items k (Nat.le_refl _)

theorem flatten_piecesOf (positive : 0 < size) (fuel : Nat) (items : List α)
    (enough : items.length ≤ fuel) : (piecesOf size fuel items).flatten = items := by
  induction fuel generalizing items with
  | zero =>
      have empty : items = [] := List.eq_nil_of_length_eq_zero (Nat.le_zero.mp enough)
      subst empty
      rfl
  | succ fuel ih =>
      cases items with
      | nil => rfl
      | cons item rest =>
          have shorter : ((item :: rest).drop size).length ≤ fuel := by
            rw [List.length_drop]
            simp only [List.length_cons] at enough ⊢
            omega
          rw [piecesOf, List.flatten_cons, ih _ shorter, List.take_append_drop]
          exact fun empty => nomatch empty

/-- A list consists of its pieces. -/
theorem flatten_pieces (positive : 0 < size) (items : List α) :
    (pieces size items).flatten = items :=
  flatten_piecesOf positive items.length items (Nat.le_refl _)

/-- A single item is a piece of its own. -/
theorem pieces_singleton (positive : 0 < size) (item : α) : pieces size [item] = [[item]] := by
  obtain ⟨n, rfl⟩ := Nat.exists_eq_succ_of_ne_zero (Nat.ne_of_gt positive)
  simp [pieces, piecesOf]

/-- No piece is empty. -/
theorem ne_nil_of_mem_pieces (positive : 0 < size) {items piece : List α}
    (member : piece ∈ pieces size items) : piece ≠ [] := by
  obtain ⟨k, found⟩ := List.mem_iff_getElem?.mp member
  rw [getElem?_pieces positive] at found
  split at found
  · rename_i within
    cases found
    intro empty
    have length := congrArg List.length empty
    rw [List.length_take, List.length_drop, List.length_nil] at length
    omega
  · cases found

theorem lt_length_pieces (positive : 0 < size) (items : List α) (k : Nat) :
    k < (pieces size items).length ↔ size * k < items.length := by
  have ended : (pieces size items)[k]? = none ↔ (pieces size items).length ≤ k :=
    List.getElem?_eq_none_iff
  rw [getElem?_pieces positive] at ended
  split at ended
  · simp only [reduceCtorEq, false_iff] at ended
    omega
  · simp only [true_iff] at ended
    omega

/-- A piece has the given length if there is another one behind it. -/
theorem length_of_getElem?_pieces {k : Nat} (positive : 0 < size)
    {items piece : List α} (found : (pieces size items)[k]? = some piece) :
    0 < piece.length ∧ piece.length ≤ size ∧
      (k + 1 < (pieces size items).length → piece.length = size) := by
  rw [lt_length_pieces positive, Nat.mul_succ]
  rw [getElem?_pieces positive] at found
  split at found
  · cases found
    rw [List.length_take, List.length_drop]
    omega
  · cases found

/-- There are as many pieces as the length fits into the list, the last time perhaps in part. -/
theorem length_pieces (positive : 0 < size) (items : List α) :
    (pieces size items).length = (items.length + size - 1) / size := by
  have within := lt_length_pieces positive items
  generalize (pieces size items).length = count at within
  have beyond : items.length ≤ size * count := by
    have last := within count
    omega
  symm
  refine Nat.div_eq_of_lt_le ?_ ?_
  · cases count with
    | zero => omega
    | succ k =>
        have inside := (within k).mp (Nat.lt_succ_self k)
        rw [Nat.succ_mul, Nat.mul_comm]
        omega
  · rw [Nat.succ_mul, Nat.mul_comm]
    omega

end TableAccess
