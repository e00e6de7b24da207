import TableAccess.Proofs.Query.Paging
import TableAccess.Proofs.Store.Limit
import TableAccess.Proofs.Store.Listing
import TableAccess.Proofs.Store.Preparing

/-!
# Pages

Limit and offset are written at the end of a statement and change nothing else of a query. Its pages
are slices of one list of rows, which depends on the limit alone: where rows are to be sorted, the
store may take another route to find the first few. So the list is that of the query without a page
wherever the query leaves nothing open, and otherwise it lists the same rows in the same order, but
those that are equal in this order may stand the other way round.
-/

namespace TableAccess

/-- The rows of a page: some are left out at the front, and of the rest no more are kept than the
limit, if it is not zero. -/
def pageOf {α : Type} (limit offset : Nat) (rows : List α) : List α :=
  if limit = 0 then rows.drop offset else (rows.drop offset).take limit

theorem pageOf_map {α β : Type} (limit offset : Nat) (f : α → β) (rows : List α) :
    (pageOf limit offset rows).map f = pageOf limit offset (rows.map f) := by
  unfold pageOf
  split <;> simp

/-- Pages of one size that follow each other are the front of the list. -/
theorem flatten_pages {α : Type} {limit : Nat} (limited : 0 < limit) (rows : List α) (count : Nat) :
    ((List.range count).map fun i => pageOf limit (i * limit) rows).flatten =
      rows.take (count * limit) := by
  have positive : limit ≠ 0 := by omega
  induction count with
  | zero => simp
  | succ count ih =>
      rw [List.range_succ, List.map_append, List.flatten_append, ih, Nat.succ_mul, List.take_add]
      simp [pageOf, positive]

/-! ## Visits -/

namespace Select

variable {sel : Select} {s : Sources}

/-- How the tables are visited does not depend on the limit: there is none, or one that is out of
reach; or rows are put in groups; or they are neither ordered nor shown once. -/
def IgnoresLimit (sel : Select) (limit : Nat) : Prop :=
  limit = 0 ∨ Nat.pow 2 31 ≤ limit ∨ sel.isGrouped = true ∨ sel.order = none ∧ sel.distinct = false

theorem outline_paged (sel : Select) (s : Sources) (limit : Nat) : (sel.paged limit 0).outline s =
    ((sel.paged 0 0).outline s).limited ((sel.paged limit 0).outline s).limit := rfl

theorem limit_outline (sel : Select) (s : Sources) : (sel.outline s).limit =
    if sel.isGrouped || sel.ordersDistinct s || sel.limit = 0 || Nat.pow 2 31 ≤ sel.limit then none
    else some sel.limit := rfl

theorem itinerary_paged {limit : Nat} (ignored : sel.IgnoresLimit limit) (s : Sources) :
    ((sel.paged limit 0).outline s).itinerary = ((sel.paged 0 0).outline s).itinerary := by
  have unlimited (fixed : limit = 0 ∨ Nat.pow 2 31 ≤ limit ∨ sel.isGrouped = true) :
      ((sel.paged limit 0).outline s).limit = ((sel.paged 0 0).outline s).limit := by
    have grouped (k : Nat) : (sel.paged k 0).isGrouped = sel.isGrouped := rfl
    have asked (k : Nat) : (sel.paged k 0).limit = k := rfl
    rw [limit_outline, limit_outline, grouped, grouped, asked, asked, if_pos, if_pos]
    · simp
    · rcases fixed with zero | far | together
      · simp [zero]
      · simp [far]
      · simp [together]
  -- a limit that counts changes the search only where an order is wanted
  by_cases fixed : limit = 0 ∨ Nat.pow 2 31 ≤ limit ∨ sel.isGrouped = true
  · rw [outline_paged, unlimited fixed]
    rfl
  · obtain ⟨unordered, plain⟩ : sel.order = none ∧ sel.distinct = false := by
      unfold IgnoresLimit at ignored
      tauto
    have alone : sel.isGrouped = false := by
      simp only [not_or, Bool.not_eq_true] at fixed
      exact fixed.2.2
    have unsorted : ((sel.paged 0 0).outline s).wanted = none := by
      have grouped : (sel.paged 0 0).isGrouped = false := alone
      have order : (sel.paged 0 0).order = none := unordered
      have distinct : (sel.paged 0 0).distinct = false := plain
      unfold outline
      dsimp only
      unfold wanted?
      rw [grouped, if_neg Bool.false_ne_true, order, distinct]
      rfl
    rw [outline_paged, Outline.itinerary_limited _ unsorted]

theorem allRows_paged {limit : Nat} (ignored : sel.IgnoresLimit limit) (offset : Nat)
    (s : Sources) : (sel.paged limit offset).allRows s = (sel.paged 0 0).allRows s := by
  have same : ((sel.paged limit offset).outline s).itinerary =
      ((sel.paged 0 0).outline s).itinerary := itinerary_paged ignored s
  unfold allRows resultRows
  dsimp only
  rw [same]
  rfl

/-- A query that fails in a group does so with every limit. -/
theorem allRows_paged_of_error {fault : Fault} (failed : (sel.paged 0 0).allRows s = .error fault)
    (limit : Nat) : (sel.paged limit 0).allRows s = .error fault := by
  cases grouped : sel.isGrouped with
  | true => exact (allRows_paged (.inr (.inr (.inl grouped))) 0 s).trans failed
  | false =>
      obtain ⟨rows, _, answered⟩ := exists_lists (sel.paged 0 0) s grouped
      cases failed.symm.trans answered

/-- Whatever the limit, rows are listed in the order of the query. -/
theorem exists_lists_paged (alone : sel.isGrouped = false) (s : Sources) (limit : Nat) :
    ∃ rows, sel.Lists s rows ∧ (sel.paged limit 0).allRows s = .ok (rows.map (·.cells)) := by
  obtain ⟨rows, lists, answered⟩ := exists_lists (sel.paged limit 0) s alone
  exact ⟨rows, ⟨lists.ordered, lists.all, lists.own, lists.once, lists.each⟩, answered⟩

def shownRow (sel : Select) (s : Sources) (cells : List Cell) : Row :=
  ⟨sel.columnNames s, cells.map Cell.toValue⟩

/-- Two answers of a query to a database: that without a page, and the one that the pages of a limit
are cut from. -/
structure Sliced (sel : Select) (db : Database) (limit : Nat) (all whole : List Row) : Prop where
  slice : ∀ offset ≤ greatestPage,
    db.select (sel.paged limit offset) = .ok (pageOf limit offset whole)
  /-- Pages that follow each other. -/
  pages : 0 < limit → ∀ count, (count - 1) * limit ≤ greatestPage → ∃ pages,
    (List.range count).mapM (fun i => db.select (sel.paged limit (i * limit))) = .ok pages ∧
      pages.flatten = whole.take (count * limit)
  same : sel.IgnoresLimit limit → whole = all
  /-- Without groups both list the rows of the query. -/
  listed : sel.isGrouped = false → ∃ s rows others, db.prepareSelect (sel.paged 0 0) = .ok s ∧
    sel.Lists s rows ∧ whole = rows.map (fun r => sel.shownRow s r.cells) ∧
    sel.Lists s others ∧ all = others.map (fun r => sel.shownRow s r.cells) ∧
    (sel.TellsApart s → whole = all)

end Select

namespace Database

variable {sel : Select} {s : Sources} {db : Database} {limit offset : Nat}

/-- A page is prepared like the query without one, but for the text in which faults are located. -/
theorem prepareSelect_paged {names : String → Prop} (within : sel.Within names) (db : Database)
    (limit offset : Nat) : (db.prepareSelect (sel.paged limit offset)).mapError Fault.bare =
      (db.prepareSelect (sel.paged 0 0)).mapError Fault.bare := by
  have located (m : Mention) (sql : String) (r : Except Fault Unit) :
      (r.mapError (m.locate sql)).mapError Fault.bare = r.mapError Fault.bare := by
    cases r with
    | ok _ => rfl
    | error fault =>
        cases place : m.place <;> simp [Except.mapError, Mention.locate, place, Fault.bare]
  unfold prepareSelect
  simp only [mapError_bind, mapError_forM, located, Select.requireWhole_paged within limit offset]
  rfl

theorem prepareSelect_paged_eq_ok {names : String → Prop} (within : sel.Within names) :
    db.prepareSelect (sel.paged limit offset) = .ok s ↔
      db.prepareSelect (sel.paged 0 0) = .ok s := by
  calc db.prepareSelect (sel.paged limit offset) = .ok s
      ↔ (db.prepareSelect (sel.paged limit offset)).mapError Fault.bare = .ok s :=
        mapError_eq_ok_iff.symm
    _ ↔ (db.prepareSelect (sel.paged 0 0)).mapError Fault.bare = .ok s := by
        rw [prepareSelect_paged within]
    _ ↔ db.prepareSelect (sel.paged 0 0) = .ok s := mapError_eq_ok_iff

theorem select_of_prepared (prepared : db.prepareSelect (sel.paged limit offset) = .ok s)
    (limited : limit ≤ Select.greatestPage) (left : offset ≤ Select.greatestPage) :
    db.select (sel.paged limit offset) = ((sel.paged limit 0).allRows s).map fun rows =>
      pageOf limit offset (rows.map (sel.shownRow s)) := by
  have cut (rows : List (List Cell)) : ((sel.paged limit offset).page rows).map (sel.shownRow s) =
      pageOf limit offset (rows.map (sel.shownRow s)) := pageOf_map limit offset _ rows
  unfold select
  rw [prepared]
  exact (runSelect_of_page limited left).trans (congrArg₂ Except.map (funext cut) rfl)

theorem select_unpaged (prepared : db.prepareSelect (sel.paged 0 0) = .ok s) :
    db.select (sel.paged 0 0) = ((sel.paged 0 0).allRows s).map fun rows =>
      rows.map (sel.shownRow s) := select_of_prepared prepared (by decide) (by decide)

/-- A query that fails without a page fails with the same fault on every page. -/
theorem select_paged_of_error {names : String → Prop} (within : sel.Within names) {fault : Fault}
    (failed : db.select (sel.paged 0 0) = .error fault) (limited : limit ≤ Select.greatestPage)
    (left : offset ≤ Select.greatestPage) :
    ∃ other, db.select (sel.paged limit offset) = .error other ∧ other.bare = fault.bare := by
  cases found : db.prepareSelect (sel.paged 0 0) with
  | error early =>
      have alike := prepareSelect_paged within db limit offset
      rw [found] at alike
      obtain ⟨other, refused, bare⟩ := mapError_eq_error_iff.mp alike
      unfold select at failed ⊢
      rw [found] at failed
      cases failed
      exact ⟨other, by rw [refused]; rfl, bare⟩
  | ok sources =>
      have found' : db.prepareSelect (sel.paged limit offset) = .ok sources :=
        (prepareSelect_paged_eq_ok within).mpr found
      rw [select_unpaged found] at failed
      cases rows : (sel.paged 0 0).allRows sources with
      | ok rows =>
          rw [rows] at failed
          cases failed
      | error late =>
          rw [rows] at failed
          cases failed
          refine ⟨fault, ?_, rfl⟩
          rw [select_of_prepared found' limited left, Select.allRows_paged_of_error rows limit]
          rfl

/-- Slices of one list are its pages. -/
theorem pages_of_slices {whole : List Row} (slices : ∀ offset ≤ Select.greatestPage,
    db.select (sel.paged limit offset) = .ok (pageOf limit offset whole)) (positive : 0 < limit)
    (count : Nat) (reached : (count - 1) * limit ≤ Select.greatestPage) : ∃ pages,
      (List.range count).mapM (fun i => db.select (sel.paged limit (i * limit))) = .ok pages ∧
        pages.flatten = whole.take (count * limit) := by
  refine ⟨_, mapM_eq_ok_map fun i member => slices (i * limit) ?_,
    flatten_pages positive whole count⟩
  have inside : i ≤ count - 1 := by
    have below := List.mem_range.mp member
    omega
  exact (Nat.mul_le_mul_right limit inside).trans reached

theorem exists_sliced {names : String → Prop} (within : sel.Within names) {all : List Row}
    (answered : db.select (sel.paged 0 0) = .ok all) (limited : limit ≤ Select.greatestPage) :
    ∃ whole, sel.Sliced db limit all whole := by
  obtain ⟨s, prepared, _⟩ := bind_eq_ok_iff.mp answered
  have slices {rows : List (List Cell)} (found : (sel.paged limit 0).allRows s = .ok rows) :
      ∀ offset ≤ Select.greatestPage, db.select (sel.paged limit offset) =
        .ok (pageOf limit offset (rows.map (sel.shownRow s))) := by
    intro offset left
    rw [select_of_prepared ((prepareSelect_paged_eq_ok within).mpr prepared) limited left, found]
    rfl
  rw [select_unpaged prepared] at answered
  -- groups are formed of all rows whatever the limit; single rows may be visited in another order
  cases grouped : sel.isGrouped with
  | true =>
      cases found : (sel.paged 0 0).allRows s with
      | error fault =>
          rw [found] at answered
          cases answered
      | ok rows =>
          rw [found] at answered
          cases answered
          have same : (sel.paged limit 0).allRows s = .ok rows :=
            (Select.allRows_paged (.inr (.inr (.inl grouped))) 0 s).trans found
          exact ⟨_,
            { slice := slices same
              pages := pages_of_slices (slices same)
              same := fun _ => rfl
              listed := fun alone => by cases grouped.symm.trans alone }⟩
  | false =>
      obtain ⟨others, lists', found⟩ := Select.exists_lists_paged grouped s 0
      obtain ⟨rows, lists, found'⟩ := Select.exists_lists_paged grouped s limit
      rw [found] at answered
      cases answered
      refine ⟨_,
        { slice := slices found'
          pages := pages_of_slices (slices found')
          same := fun ignored => ?_
          listed := fun _ => ⟨s, rows, others, prepared, lists, ?_, lists', ?_, fun apart => ?_⟩ }⟩
      · have same := (Select.allRows_paged ignored 0 s).trans found
        rw [Except.ok.inj (found'.symm.trans same)]
      · exact List.map_map
      · exact List.map_map
      · rw [lists.unique apart lists']

end Database

/-- The pages of a query are slices of one list of rows that depends on the limit alone. A page is
checked as the query without one, and asked for at the end of the same statement; where the query
fails, its pages fail too, with the same fault. Where the query is answered, so is each page: with
the rows that are left of a list once those of the offset are left out, up to the limit unless this
is zero, so that pages which follow each other are the front of the list. The list is the answer to
the query itself if there is no limit, if rows are put in groups, if they are neither ordered nor
shown once, or if the query tells its rows apart. Otherwise both list the rows of the query in its
order: each of them, or, where rows are shown once, one of those that count as the same. -/
theorem Query.pages_are_slices (q : Query) (s : Snapshot) (db : Database) {limit : Nat}
    (limited : limit ≤ Select.greatestPage) :
    (∀ offset, (q.paged limit offset).plan s = (q.plan s).map (·.paged limit offset)) ∧
    ∀ sel, q.plan s = .ok sel →
      (∀ offset, (sel.paged limit offset).statement =
        { (sel.paged 0 0).statement with
          sql := (sel.paged 0 0).statement.sql ++ Select.pageText limit offset }) ∧
      (∀ fault, db.select (sel.paged 0 0) = .error fault → ∀ offset ≤ Select.greatestPage,
        ∃ other, db.select (sel.paged limit offset) = .error other ∧ other.bare = fault.bare) ∧
      ∀ all, db.select (sel.paged 0 0) = .ok all → ∃ whole, sel.Sliced db limit all whole := by
  refine ⟨Select.plan_paged q s limit, fun sel accepted => ?_⟩
  have within := within_of_plan accepted
  exact ⟨sel.statement_paged limit,
    fun fault failed offset left => Database.select_paged_of_error within failed limited left,
    fun all answered => Database.exists_sliced within answered limited⟩

/-! ## Prizes -/

def prizes (first second : Cell) : StoredTable where
  definition :=
    { name := "prizes"
      columns :=
        [{ name := "id", declared := "INTEGER", primaryKey := true },
          { name := "points", declared := "INTEGER", unique := true }] }
  rows := [⟨1, [.integer 1, first]⟩, ⟨2, [.integer 2, second]⟩]

def prizesCatalog : Snapshot := .ofList [(prizes .null .null).definition.describe]

def plainPrize (id : Int64) : Row := ⟨["id", "points"], [.long id, .null]⟩

def prizesBy (column : String) : Query where
  table := "prizes"
  filter := .entries [("id__gt", .scalar (.int 0))]
  order := some column

def prizesBySelect (column : String) : Select where
  table := "prizes"
  distinct := false
  projections := [.column "prizes" "id", .column "prizes" "points"]
  join := none
  condition := .condition ⟨"prizes", "id", .gt, .value (.int 0)⟩
  groupBy := []
  order := some (.column column, .descending)
  limit := 0
  offset := 0

def allPoints : Query where
  table := "prizes"
  columns := ["points"]
  filter := .entries [("id__gt", .scalar (.int 0))]
  distinct := true

def allPointsSelect : Select where
  table := "prizes"
  distinct := true
  projections := [.column "prizes" "points"]
  join := none
  condition := .condition ⟨"prizes", "id", .gt, .value (.int 0)⟩
  groupBy := []
  order := none
  limit := 0
  offset := 0

def prizeStore (first second : Cell) : Database := ⟨[prizes first second], []⟩

def prizeSources (first second : Cell) : Sources := ⟨⟨prizes first second, false⟩, none⟩

deriving instance DecidableEq for Sources

theorem mergeSort_pair {α : Type} (le : α → α → Bool) (a b : α) :
    [a, b].mergeSort le = if le a b then [a, b] else [b, a] := by
  rw [List.mergeSort]
  cases ordered : le a b <;> simp [ordered]

namespace Select

variable {sel : Select} {s : Sources} {p p' : Pairing}

def visitedPair (sel : Select) (s : Sources) (p p' : Pairing) : ResultRow × ResultRow :=
  if (sel.outline s).itinerary.order s p p' != .gt then (sel.rowOf s p, sel.rowOf s p')
  else (sel.rowOf s p', sel.rowOf s p)

def listedPair (sel : Select) (s : Sources) (p p' : Pairing) : List ResultRow :=
  let (a, b) := sel.visitedPair s p p'
  if sel.distinct && sameCells a.cells b.cells then [a]
  else if sel.precedes a b then [a, b]
  else [b, a]

theorem sorted_pair (sel : Select) (a b : ResultRow) :
    sel.sorted [a, b] = if sel.precedes a b then [a, b] else [b, a] := by
  rw [sorted_eq, mergeSort_pair]
  split
  · rename_i unordered
    simp [precedes, unordered]
  · rfl

theorem allRows_pair (alone : sel.isGrouped = false) (pairs : sel.pairings s = [p, p']) :
    sel.allRows s = .ok ((sel.listedPair s p p').map (·.cells)) := by
  have rows : sel.resultRows s = .ok [(sel.visitedPair s p p').1, (sel.visitedPair s p p').2] := by
    rw [resultRows_eq alone, visited, pairs, mergeSort_pair]
    unfold visitedPair
    split <;> rfl
  unfold allRows listedPair
  rw [rows]
  generalize sel.visitedPair s p p' = visits
  cases once : sel.distinct with
  | false =>
      simp only [Bool.false_and, Bool.false_eq_true, if_false, ← sorted_pair]
      rfl
  | true =>
      cases alike : sameCells visits.1.cells visits.2.cells with
      | false =>
          simp [distinctBy, alike, ← sorted_pair]
      | true =>
          have single : sel.sorted [visits.1] = [visits.1] := by
            rw [sorted_eq]
            split <;> simp
          simp [distinctBy, alike, single]

end Select

theorem Database.select_pair {db : Database} {sel : Select} {s : Sources} {p p' : Pairing}
    {limit : Nat} (prepared : db.prepareSelect (sel.paged limit 0) = .ok s)
    (limited : limit ≤ Select.greatestPage) (alone : sel.isGrouped = false)
    (pairs : sel.pairings s = [p, p']) : db.select (sel.paged limit 0) =
      .ok (pageOf limit 0 (((sel.paged limit 0).listedPair s p p').map fun r =>
        sel.shownRow s r.cells)) := by
  have answered : (sel.paged limit 0).allRows s =
      .ok (((sel.paged limit 0).listedPair s p p').map (·.cells)) := Select.allRows_pair alone pairs
  rw [select_of_prepared prepared limited (Nat.zero_le _), answered]
  simp [Except.map, Function.comp_def]

/-- Both prizes, as they are paired in a query of them. -/
theorem pairings_prizesBy (column : String) : (prizesBySelect column).pairings
    (prizeSources .null .null) =
      [⟨⟨1, [.integer 1, .null]⟩, none⟩, ⟨⟨2, [.integer 2, .null]⟩, none⟩] := by
  have same : (prizesBySelect column).pairings (prizeSources .null .null) =
      (prizesBySelect "").pairings (prizeSources .null .null) := rfl
  rw [same]
  decide +kernel

theorem pages_are_slices_prizes :
    (prizesBy "id").plan prizesCatalog = .ok (prizesBySelect "id") ∧ 1 ≤ Select.greatestPage ∧
    (prizeStore .null .null).select ((prizesBySelect "id").paged 0 0) =
      .ok [plainPrize 2, plainPrize 1] ∧
    (prizeStore .null .null).select ((prizesBySelect "id").paged 1 1) = .ok [plainPrize 1] := by
  have accepted : (prizesBy "id").plan prizesCatalog = .ok (prizesBySelect "id") := rfl
  have prepared : (prizeStore .null .null).prepareSelect ((prizesBySelect "id").paged 0 0) =
      .ok (prizeSources .null .null) := by decide +kernel
  have all : (prizeStore .null .null).select ((prizesBySelect "id").paged 0 0) =
      .ok [plainPrize 2, plainPrize 1] :=
    (Database.select_pair prepared (by decide) rfl (pairings_prizesBy "id")).trans
      (by decide +kernel)
  have limited : 1 ≤ Select.greatestPage := by decide
  obtain ⟨whole, sliced⟩ :=
    ((Query.pages_are_slices (prizesBy "id") prizesCatalog (prizeStore .null .null) limited).2 _
      accepted).2.2 _ all
  -- the number of a prize tells it apart
  obtain ⟨s, rows, others, prepared', _, _, _, _, same⟩ := sliced.listed rfl
  cases prepared.symm.trans prepared'
  have apart : (prizesBySelect "id").TellsApart (prizeSources .null .null) :=
    Select.tellsApart_of_column rfl rfl rfl (by decide +kernel)
  rw [same apart] at sliced
  exact ⟨accepted, limited, all, sliced.slice 1 limited⟩

/-- A page of prizes is visited by another route. So it begins with another one of the prizes
without points, which are equal in the order that was asked for; and so it does where the points are
shown once, in no order that was asked for. -/
theorem pages_are_no_slices_prizes :
    (prizesBy "points").plan prizesCatalog = .ok (prizesBySelect "points") ∧
    (prizeStore .null .null).select ((prizesBySelect "points").paged 0 0) =
      .ok [plainPrize 2, plainPrize 1] ∧
    (prizeStore .null .null).select ((prizesBySelect "points").paged 1 0) = .ok [plainPrize 1] ∧
    pageOf 1 0 [plainPrize 2, plainPrize 1] = [plainPrize 2] ∧
    allPoints.plan prizesCatalog = .ok allPointsSelect ∧
    (prizeStore (.integer 30) (.integer 20)).select (allPointsSelect.paged 0 0) =
      .ok [⟨["points"], [.long 20]⟩, ⟨["points"], [.long 30]⟩] ∧
    (prizeStore (.integer 30) (.integer 20)).select (allPointsSelect.paged 1 0) =
      .ok [⟨["points"], [.long 30]⟩] ∧
    pageOf 1 0 [(⟨["points"], [.long 20]⟩ : Row), ⟨["points"], [.long 30]⟩] =
      [⟨["points"], [.long 20]⟩] := by
  have prizes (limit : Nat) : (prizeStore .null .null).prepareSelect
      ((prizesBySelect "points").paged limit 0) = .ok (prizeSources .null .null) := by
    have within := Query.within_of_plan (s := prizesCatalog) (q := prizesBy "points") rfl
    exact (Database.prepareSelect_paged_eq_ok within).mpr (by decide +kernel)
  have points (limit : Nat) : (prizeStore (.integer 30) (.integer 20)).prepareSelect
      (allPointsSelect.paged limit 0) = .ok (prizeSources (.integer 30) (.integer 20)) := by
    have within := Query.within_of_plan (s := prizesCatalog) (q := allPoints) rfl
    exact (Database.prepareSelect_paged_eq_ok within).mpr (by decide +kernel)
  have pairs : allPointsSelect.pairings (prizeSources (.integer 30) (.integer 20)) =
      [⟨⟨1, [.integer 1, .integer 30]⟩, none⟩, ⟨⟨2, [.integer 2, .integer 20]⟩, none⟩] := by
    decide +kernel
  refine ⟨rfl, ?_, ?_, rfl, rfl, ?_, ?_, rfl⟩
  · exact (Database.select_pair (prizes 0) (by decide) rfl (pairings_prizesBy "points")).trans
      (by decide +kernel)
  · exact (Database.select_pair (prizes 1) (by decide) rfl (pairings_prizesBy "points")).trans
      (by decide +kernel)
  · exact (Database.select_pair (points 0) (by decide) rfl pairs).trans (by decide +kernel)
  · exact (Database.select_pair (points 1) (by decide) rfl pairs).trans (by decide +kernel)

end TableAccess
