import Mathlib.Data.List.Nodup
import TableAccess.Proofs.Outcome
import TableAccess.Proofs.Store.CellOrder

/-!
# Rows one by one

A query without groups shows each of its pairings in a row of its own. The rows come in the order of
the query, and those that count as the same once, if that was asked for. How the tables are visited
only decides what the query leaves open: which of the rows that are equal in its order come first,
and which of those that count as the same is shown.
-/

namespace TableAccess

/-! ## Rows shown once -/

section DistinctBy

variable {α : Type} {same : α → α → Bool} {list : List α} {a b : α}

theorem mem_of_mem_distinctBy (member : a ∈ distinctBy same list) : a ∈ list := by
  induction list with
  | nil => cases member
  | cons first rest ih =>
      rcases List.mem_cons.mp member with rfl | later
      · exact List.mem_cons_self
      · exact List.mem_cons_of_mem _ (ih (List.mem_filter.mp later).1)

theorem pairwise_distinctBy (same : α → α → Bool) (list : List α) :
    (distinctBy same list).Pairwise fun a b => same a b = false := by
  induction list with
  | nil => exact .nil
  | cons first rest ih =>
      refine .cons (fun other later => ?_) (ih.filter _)
      simpa using (List.mem_filter.mp later).2

/-- Of every element one that counts as the same is left. -/
theorem exists_mem_distinctBy (same : α → α → Bool) (refl : ∀ a, same a a = true)
    (trans : ∀ a b c, same a b = true → same b c = true → same a c = true) (member : a ∈ list) :
    ∃ b ∈ distinctBy same list, same b a = true := by
  induction list with
  | nil => cases member
  | cons first rest ih =>
      rcases List.mem_cons.mp member with rfl | later
      · exact ⟨_, List.mem_cons_self, refl _⟩
      · obtain ⟨b, left, alike⟩ := ih later
        cases first_ : same first b with
        | true => exact ⟨first, List.mem_cons_self, trans _ _ _ first_ alike⟩
        | false =>
            have kept : b ∈ (distinctBy same rest).filter fun other => !same first other :=
              List.mem_filter.mpr ⟨left, by simp [first_]⟩
            exact ⟨b, List.mem_cons_of_mem _ kept, alike⟩

end DistinctBy

namespace Select

variable {sel : Select} {s : Sources}

/-! ## The order of a query -/

/-- Whether one row may stand before another one in the order of a query. -/
def precedes (sel : Select) (first second : ResultRow) : Bool :=
  match sel.order with
  | none => true
  | some (_, .ascending) => first.orderCell.order second.orderCell != .gt
  | some (_, .descending) => first.orderCell.order second.orderCell != .lt

theorem precedes_trans (sel : Select) (a b c : ResultRow) (first : sel.precedes a b = true)
    (second : sel.precedes b c = true) : sel.precedes a c = true := by
  unfold precedes at *
  cases order : sel.order with
  | none => rfl
  | some asked =>
      obtain ⟨target, direction⟩ := asked
      rw [order] at first second
      cases direction with
      | ascending =>
          simp only [bne_iff_ne, ne_eq, ← Ordering.isLE_iff_ne_gt] at *
          exact Std.TransCmp.isLE_trans first second
      | descending =>
          simp only [bne_iff_ne, ne_eq, ← Ordering.isGE_iff_ne_lt] at *
          exact Std.TransCmp.isGE_trans first second

theorem precedes_total (sel : Select) (a b : ResultRow) :
    (sel.precedes a b || sel.precedes b a) = true := by
  unfold precedes
  have swapped : a.orderCell.order b.orderCell = (b.orderCell.order a.orderCell).swap :=
    Std.OrientedCmp.eq_swap
  cases sel.order with
  | none => rfl
  | some asked =>
      obtain ⟨target, direction⟩ := asked
      cases direction <;> simp only [swapped] <;> cases b.orderCell.order a.orderCell <;> rfl

/-- Rows that may stand either way round are equal in what they are ordered by. -/
theorem order_eq_of_precedes {asked : OrderTarget × Direction} (ordered : sel.order = some asked)
    {a b : ResultRow} (first : sel.precedes a b = true) (second : sel.precedes b a = true) :
    a.orderCell.order b.orderCell = .eq := by
  have swapped : a.orderCell.order b.orderCell = (b.orderCell.order a.orderCell).swap :=
    Std.OrientedCmp.eq_swap
  obtain ⟨target, direction⟩ := asked
  simp only [precedes, ordered, swapped] at first second ⊢
  cases direction <;> cases other : b.orderCell.order a.orderCell <;> simp_all

theorem sorted_eq (sel : Select) (rows : List ResultRow) :
    sel.sorted rows = if sel.order = none then rows else rows.mergeSort sel.precedes := by
  unfold sorted precedes
  rcases sel.order with _ | ⟨_, _ | _⟩ <;> simp

/-- The order of a query is one of its rows. -/
theorem perm_sorted (sel : Select) (rows : List ResultRow) : (sel.sorted rows).Perm rows := by
  rw [sorted_eq]
  split
  · exact .refl _
  · exact List.mergeSort_perm _ _

theorem pairwise_sorted (sel : Select) (rows : List ResultRow) :
    (sel.sorted rows).Pairwise fun a b => sel.precedes a b = true := by
  rw [sorted_eq]
  split
  · rename_i unordered
    exact List.pairwise_of_forall fun a b => by simp [precedes, unordered]
  · exact List.pairwise_mergeSort sel.precedes_trans sel.precedes_total rows

/-! ## Rows of pairings -/

/-- What a pairing shows in a column of a query. -/
def cellOf (sel : Select) (s : Sources) (p : Pairing) : Projection → Cell
  | .column table field => s.cellAt sel p table field
  | .aggregate .. => .null

def rowOf (sel : Select) (s : Sources) (p : Pairing) : ResultRow :=
  let cells := sel.projections.map (sel.cellOf s p)
  ⟨cells, sel.orderCell s (some p) cells⟩

def rowsOf (sel : Select) (s : Sources) : List ResultRow := (sel.pairings s).map (sel.rowOf s)

theorem isGrouped_eq_false_iff : sel.isGrouped = false ↔ sel.groupBy = [] ∧
    ∀ p ∈ sel.projections, ∃ table field, p = .column table field := by
  rw [isGrouped, Bool.or_eq_false_iff, List.any_eq_false]
  refine and_congr (by simp) (forall₂_congr fun p _ => ?_)
  cases p <;> simp

theorem shownPairing?_single (p : Pairing) : sel.shownPairing? s [p] = some p := by
  unfold shownPairing?
  dsimp only
  split <;> rfl

theorem visited_perm (sel : Select) (s : Sources) (i : Itinerary) :
    (sel.visited s i).Perm (sel.pairings s) :=
  List.mergeSort_perm _ _

/-- Each pairing gives its row. -/
theorem resultRows_eq (alone : sel.isGrouped = false) : sel.resultRows s =
    .ok ((sel.visited s (sel.outline s).itinerary).map (sel.rowOf s)) := by
  obtain ⟨_, columns⟩ := isGrouped_eq_false_iff.mp alone
  have cells (p : Pairing) : sel.projections.mapM (sel.groupCell s [p]) =
      .ok (sel.projections.map (sel.cellOf s p)) := by
    refine mapM_eq_ok_map fun shown listed => ?_
    obtain ⟨table, field, rfl⟩ := columns shown listed
    simp [groupCell, shownPairing?_single, cellOf]
  unfold resultRows
  dsimp only
  rw [alone, if_neg Bool.false_ne_true, List.mapM_map]
  refine mapM_eq_ok_map fun p _ => ?_
  simp only [Function.comp_apply, cells, shownPairing?_single]
  rfl

/-- What a query lists: the rows of its pairings, in its order; if repeated rows are left out, one
of those that count as the same. -/
structure Lists (sel : Select) (s : Sources) (rows : List ResultRow) : Prop where
  ordered : rows.Pairwise fun a b => sel.precedes a b = true
  all : sel.distinct = false → rows.Perm (sel.rowsOf s)
  own : ∀ r ∈ rows, r ∈ sel.rowsOf s
  once : sel.distinct = true → rows.Pairwise fun a b => sameCells a.cells b.cells = false
  each : ∀ r ∈ sel.rowsOf s, ∃ a ∈ rows, sameCells a.cells r.cells = true

/-- A query without groups lists its rows. -/
theorem exists_lists (sel : Select) (s : Sources) (alone : sel.isGrouped = false) :
    ∃ rows, sel.Lists s rows ∧ sel.allRows s = .ok (rows.map (·.cells)) := by
  have visits := (visited_perm sel s (sel.outline s).itinerary).map (sel.rowOf s)
  unfold allRows
  rw [resultRows_eq alone]
  cases once : sel.distinct with
  | false =>
      have perm := (sel.perm_sorted _).trans visits
      refine ⟨_, ?_, rfl⟩
      exact
        { ordered := sel.pairwise_sorted _
          all := fun _ => perm
          own := fun r member => perm.mem_iff.mp member
          once := fun asked => by cases once.symm.trans asked
          each := fun r member => ⟨r, perm.mem_iff.mpr member, sameCells_refl _⟩ }
  | true =>
      have perm := sel.perm_sorted (distinctBy (fun a b => sameCells a.cells b.cells)
        ((sel.visited s (sel.outline s).itinerary).map (sel.rowOf s)))
      refine ⟨_, ?_, rfl⟩
      exact
        { ordered := sel.pairwise_sorted _
          all := fun asked => by cases once.symm.trans asked
          own := fun r member =>
            visits.mem_iff.mp (mem_of_mem_distinctBy (perm.mem_iff.mp member))
          once := fun _ => perm.symm.pairwise (pairwise_distinctBy _ _) fun apart =>
            sameCells_comm.symm.trans apart
          each := fun r member => by
            obtain ⟨a, left, alike⟩ := exists_mem_distinctBy (fun a b => sameCells a.cells b.cells)
              (fun a => sameCells_refl a.cells) (fun _ _ _ => sameCells_trans)
              (visits.mem_iff.mpr member)
            exact ⟨a, perm.mem_iff.mpr left, alike⟩ }

/-- Rows that the query tells apart: in its order, or, where rows are shown once, by what they
show. -/
def TellsApart (sel : Select) (s : Sources) : Prop :=
  ∀ a ∈ sel.rowsOf s, ∀ b ∈ sel.rowsOf s,
    sel.precedes a b = true ∧ sel.precedes b a = true ∨
      sel.distinct = true ∧ sameCells a.cells b.cells = true → a = b

/-- A query of one table that is ordered by a column in which any two of its rows differ tells its
rows apart. -/
theorem tellsApart_of_column {field : String} {direction : Direction} (unjoined : sel.join = none)
    (plain : sel.distinct = false) (ordered : sel.order = some (.column field, direction))
    (differ : ∀ a ∈ s.primary.table.rows, ∀ b ∈ s.primary.table.rows,
      (s.primary.table.cellAt a field).order (s.primary.table.cellAt b field) = .eq → a = b) :
    sel.TellsApart s := by
  have row {r : ResultRow} (member : r ∈ sel.rowsOf s) : ∃ a ∈ s.primary.table.rows,
      r = sel.rowOf s ⟨a, none⟩ ∧ r.orderCell = s.primary.table.cellAt a field := by
    obtain ⟨p, paired, rfl⟩ := List.mem_map.mp member
    have own : ∃ a ∈ s.primary.table.rows, p = ⟨a, none⟩ := by
      simp only [pairings, unjoined, List.mem_map] at paired
      obtain ⟨a, listed, rfl⟩ := paired
      exact ⟨a, (List.mem_filter.mp listed).1, rfl⟩
    obtain ⟨a, listed, rfl⟩ := own
    refine ⟨a, listed, rfl, ?_⟩
    simp [rowOf, orderCell, ordered]
  rintro r here r' there (⟨first, second⟩ | ⟨once, _⟩)
  · have equal := order_eq_of_precedes ordered first second
    obtain ⟨a, listed, rfl, shown⟩ := row here
    obtain ⟨b, listed', rfl, shown'⟩ := row there
    rw [shown, shown'] at equal
    rw [differ a listed b listed' equal]
  · cases plain.symm.trans once

/-- If a query tells its rows apart, there is only one way to list them. -/
theorem Lists.unique {rows others : List ResultRow} (apart : sel.TellsApart s)
    (lists : sel.Lists s rows) (lists' : sel.Lists s others) : rows = others := by
  have perm : rows.Perm others := by
    cases once : sel.distinct with
    | false => exact (lists.all once).trans (lists'.all once).symm
    | true =>
        have nodup {rows : List ResultRow} (lists : sel.Lists s rows) : rows.Nodup := by
          refine (lists.once once).imp fun {a b} differ same => ?_
          rw [same, sameCells_refl] at differ
          cases differ
        have within {rows others : List ResultRow} (lists : sel.Lists s rows)
            (lists' : sel.Lists s others) (r : ResultRow) (member : r ∈ rows) : r ∈ others := by
          obtain ⟨a, listed, alike⟩ := lists'.each r (lists.own r member)
          have same := apart a (lists'.own a listed) r (lists.own r member) (.inr ⟨once, alike⟩)
          exact same ▸ listed
        exact (List.perm_ext_iff_of_nodup (nodup lists) (nodup lists')).mpr fun r =>
          ⟨within lists lists' r, within lists' lists r⟩
  refine perm.eq_of_pairwise (fun a b here there first second => ?_) lists.ordered lists'.ordered
  exact apart a (lists.own a here) b (lists'.own b there) (.inl ⟨first, second⟩)

end Select

end TableAccess
