import TableAccess.Proofs.Filter.Meaning
import TableAccess.Proofs.Query.Placeholders
import TableAccess.Proofs.Store.Listing
import TableAccess.Proofs.Store.Preparing

/-!
# Partners

What a join asks for decides which rows of the joined table are partners of a row; it does not
decide which rows of the queried table are shown. These are the rows that satisfy the filter of the
query, each with each of its partners. One without a partner is shown alone, with nulls in place of
a partner's cells, if the join is an outer one, and otherwise not at all.
-/

namespace TableAccess

/-- A row satisfies a compiled filter if the filter holds of its cells. -/
theorem StoredTable.satisfies_compiled {t : Table} {f : Filter} {condition : Predicate}
    (compiled : t.compile f = .ok condition) (stored : StoredTable) (row : StoredRow) :
    stored.satisfies condition row = (f.truth (t.entryTruth (stored.conditionTruth row))).holds :=
  congrArg Truth.holds (Table.truth_compiled compiled _)

/-! ## What a join asks for -/

namespace Join

variable {join : Join} {u : Table} {condition : Predicate} {primary secondary : StoredTable}

/-- Whether two rows agree in the columns of a join; this is unknown if one of the cells is null. -/
def agreement (join : Join) (primary secondary : StoredTable) (row other : StoredRow) : Truth :=
  let left := primary.cellAt row join.primaryColumn
  let right := secondary.cellAt other join.secondaryColumn
  if left.isNull || right.isNull then .unknown
  else
    let (a, b) := ColumnType.comparablePair (primary.definition.typeOf join.primaryColumn)
      (secondary.definition.typeOf join.secondaryColumn) left right
    .ofBool (a.same b)

/-- What a join asks of two rows: that they agree, and that the second one satisfies the condition
of the join, which is a filter on the joined table. -/
def demand (join : Join) (u : Table) (primary secondary : StoredTable) (row other : StoredRow) :
    Truth :=
  (join.agreement primary secondary row other).and
    (join.condition.truth (u.entryTruth (secondary.conditionTruth other)))

def partners (join : Join) (u : Table) (primary secondary : StoredTable) (row : StoredRow) :
    List StoredRow :=
  secondary.rows.filter fun other => (join.demand u primary secondary row other).holds

def checked (join : Join) (u : Table) (condition : Predicate) : JoinedTable :=
  ⟨u.name, join.outer, join.primaryColumn, join.secondaryColumn, condition⟩

theorem joins_checked (compiled : u.compile join.condition = .ok condition)
    (row other : StoredRow) : (join.checked u condition).joins primary secondary row other =
      (join.demand u primary secondary row other).holds := by
  unfold demand agreement JoinedTable.joins
  rw [Truth.holds_and, ← StoredTable.satisfies_compiled compiled]
  dsimp only [checked]
  cases primary.cellAt row join.primaryColumn |>.isNull with
  | true => rfl
  | false =>
      cases secondary.cellAt other join.secondaryColumn |>.isNull with
      | true => rfl
      | false => simp

/-- A row with its partners, or alone. -/
theorem pairings_checked (compiled : u.compile join.condition = .ok condition) (row : StoredRow) :
    (join.checked u condition).pairings primary secondary row =
      if join.partners u primary secondary row = [] then if join.outer then [⟨row, none⟩] else []
      else (join.partners u primary secondary row).map fun other => ⟨row, some other⟩ := by
  have same : secondary.rows.filter ((join.checked u condition).joins primary secondary row) =
      join.partners u primary secondary row :=
    List.filter_congr fun other _ => joins_checked compiled row other
  unfold JoinedTable.pairings
  dsimp only
  rw [same]
  cases join.partners u primary secondary row with
  | nil => cases outer : join.outer <;> simp [checked, outer]
  | cons first rest => simp

end Join

/-! ## Two tables -/

/-- A query whose tables and columns are found joins two tables of different names, since a column
of a table that is joined with itself would be one of both. -/
theorem Database.apart_of_prepared {db : Database} {sel : Select} {sources : Sources}
    {j : JoinedTable} (prepared : db.prepareSelect sel = .ok sources) (side : sel.join = some j) :
    Text.same sel.table j.table = false := by
  obtain ⟨primary, secondary, _, _, _, checked⟩ := of_prepareSelect prepared
  refine eq_false_of_ne_true fun same => ?_
  rw [side] at secondary
  obtain ⟨other, found, whole⟩ := bind_eq_ok_iff.mp secondary
  have both : some sources.primary = sources.secondary := by
    cases (source_congr same primary).symm.trans found
    exact Except.ok.inj whole
  -- the column of the queried table that is joined by is one of both
  have mentioned : .column sel.table j.primaryColumn ∈ sel.sourceFragments := by
    simp [Select.sourceFragments, side, JoinedTable.fragments]
  obtain ⟨m, listed, named, field⟩ := Mention.exists_mem_unplaced mentioned
  have member : m ∈ sel.mentions := by
    simp [Select.mentions, listed]
  have passed := checked m member
  rw [named, field] at passed
  exact Select.checkColumn_of_twins (Select.sourcesOf_both side both.symm same) passed

namespace Query

variable {q : Query} {s : Snapshot} {sel : Select} {join : Join} {t u : Table}

def ownColumns (q : Query) (t : Table) : List String :=
  if q.columns.isEmpty then t.columns.map (·.name) else q.columns

/-- A query shows the rows of two tables one by one: it joins them, and neither puts rows in groups,
nor shows them once, nor only so many of them. -/
structure JoinsRows (q : Query) (join : Join) : Prop where
  join : q.join = some join
  groupBy : q.groupBy = []
  aggregates : q.aggregates = []
  distinct : q.distinct = false
  limit : q.limit = 0

/-- What a row and its partner show; without a partner the columns of the joined table are null. -/
def shownPair (q : Query) (join : Join) (t : Table) (primary secondary : StoredTable)
    (row : StoredRow) (partner? : Option StoredRow) : List Value :=
  ((q.ownColumns t).map fun column => (primary.cellAt row column).toValue)
    ++ join.columns.map fun column =>
      (partner?.map fun other => (secondary.cellAt other column).toValue).getD .null

/-- What is shown of a row: the row with each of its partners, or alone. -/
def shownOf (q : Query) (join : Join) (t u : Table) (primary secondary : StoredTable)
    (row : StoredRow) : List (List Value) :=
  let partners := join.partners u primary secondary row
  if partners = [] then
    if join.outer then [q.shownPair join t primary secondary row none] else []
  else partners.map fun other => q.shownPair join t primary secondary row (some other)

/-- Something is shown of every row in an outer join. -/
theorem shownOf_ne_nil (outer : join.outer = true) {primary secondary : StoredTable}
    (row : StoredRow) : q.shownOf join t u primary secondary row ≠ [] := by
  unfold shownOf
  dsimp only
  by_cases lonely : join.partners u primary secondary row = []
  · rw [if_pos lonely, if_pos outer]
    exact List.cons_ne_nil _ _
  · rw [if_neg lonely]
    simpa using lonely

/-- The checked form of a query that shows the rows of two tables one by one. -/
structure Joined (q : Query) (s : Snapshot) (join : Join) (t u : Table) (condition : Predicate)
    (sel : Select) : Prop where
  found : s.resolve q.table = .ok t
  there : s.resolve join.secondaryTable = .ok u
  filter : t.compile q.filter = .ok sel.condition
  restriction : u.compile join.condition = .ok condition
  table : sel.table = t.name
  side : sel.join = some (join.checked u condition)
  projections : sel.projections =
    (q.ownColumns t).map (.column t.name) ++ join.columns.map (.column u.name)
  groupBy : sel.groupBy = []
  distinct : sel.distinct = false
  limit : sel.limit = 0
  offset : sel.offset = q.offset

theorem ownProjections_eq {own : List Projection} (checked : q.ownProjections t = .ok own) :
    own = (q.ownColumns t).map (.column t.name) := by
  unfold ownProjections at checked
  unfold ownColumns
  split at checked
  · rename_i unnamed
    cases checked
    rw [if_pos unnamed, List.map_map]
    rfl
  · rename_i named
    rw [if_neg named]
    exact (columnProjections_eq checked).1

theorem joined_of_plan (accepted : q.plan s = .ok sel) (rows : q.JoinsRows join) :
    ∃ t u condition, q.Joined s join t u condition sel := by
  obtain ⟨t, joined, planned⟩ := planned_of_plan accepted
  rcases planned.sides with ⟨alone, _⟩ | ⟨_, u, condition, asked, there, _, _, compiled, side⟩
  · cases alone.symm.trans rows.join
  · cases asked.symm.trans rows.join
    have both : joined = some (join, u) := by
      rcases resolveJoin_cases planned.resolved with ⟨alone, _⟩ | ⟨_, _, asked', there', same⟩
      · cases alone.symm.trans asked
      · cases asked.symm.trans asked'
        cases there.symm.trans there'
        exact same
    have shown := planned.projections
    rw [projections_eq, both, rows.aggregates] at shown
    obtain ⟨own, first, rest⟩ := bind_eq_ok_iff.mp shown
    obtain ⟨others, second, rest⟩ := bind_eq_ok_iff.mp rest
    have projections : own ++ others ++ [] = sel.projections := Except.ok.inj rest
    have columns : others = join.columns.map (.column u.name) := (columnProjections_eq second).1
    rw [List.append_nil, ownProjections_eq first, columns] at projections
    exact ⟨t, u, condition,
      { found := planned.found
        there := there
        filter := planned.condition
        restriction := compiled
        table := planned.table
        side := side
        projections := projections.symm
        groupBy := planned.groupBy.trans rows.groupBy
        distinct := planned.distinct.trans rows.distinct
        limit := planned.limit.trans rows.limit
        offset := planned.offset }⟩

namespace Joined

variable {condition : Predicate} {primary secondary : Source}

theorem alone (joined : q.Joined s join t u condition sel) : sel.isGrouped = false := by
  refine Select.isGrouped_eq_false_iff.mpr ⟨joined.groupBy, fun p listed => ?_⟩
  rw [joined.projections] at listed
  rcases List.mem_append.mp listed with own | other
  · obtain ⟨field, _, rfl⟩ := List.mem_map.mp own
    exact ⟨_, field, rfl⟩
  · obtain ⟨field, _, rfl⟩ := List.mem_map.mp other
    exact ⟨_, field, rfl⟩

theorem values_rowOf (joined : q.Joined s join t u condition sel)
    (apart : Text.same t.name u.name = false) (p : Pairing) :
    (sel.rowOf ⟨primary, some secondary⟩ p).cells.map Cell.toValue =
      q.shownPair join t primary.table secondary.table p.primary p.secondary := by
  have own (field : String) : sel.cellOf ⟨primary, some secondary⟩ p (.column t.name field) =
      primary.table.cellAt p.primary field := by
    have same : Text.same t.name sel.table = true := Text.same_iff.mpr (by rw [joined.table])
    simp [Select.cellOf, Sources.cellAt, same]
  have other (field : String) : (sel.cellOf ⟨primary, some secondary⟩ p
      (.column u.name field)).toValue =
        (p.secondary.map fun row => (secondary.table.cellAt row field).toValue).getD .null := by
    have differ : Text.same u.name sel.table = false := by
      rw [joined.table, Text.same_comm]
      exact apart
    cases partner : p.secondary <;>
      simp [Select.cellOf, Sources.cellAt, differ, partner, Cell.toValue]
  unfold Select.rowOf shownPair
  simp only [joined.projections, List.map_append, List.map_map, Function.comp_def, own, other]

/-- What a query of two tables shows. -/
theorem values_rowsOf (joined : q.Joined s join t u condition sel)
    (apart : Text.same t.name u.name = false) :
    ((sel.rowsOf ⟨primary, some secondary⟩).map fun r => r.cells.map Cell.toValue) =
      (primary.table.rows.filter fun row =>
        (q.filter.truth (t.entryTruth (primary.table.conditionTruth row))).holds).flatMap
          (q.shownOf join t u primary.table secondary.table) := by
  have meant := StoredTable.satisfies_compiled joined.filter primary.table
  have pairings : sel.pairings ⟨primary, some secondary⟩ =
      (primary.table.rows.filter (primary.table.satisfies sel.condition)).flatMap
        ((join.checked u condition).pairings primary.table secondary.table) := by
    simp [Select.pairings, joined.side]
  have each (row : StoredRow) :
      (((join.checked u condition).pairings primary.table secondary.table row).map fun p =>
        (sel.rowOf ⟨primary, some secondary⟩ p).cells.map Cell.toValue) =
          q.shownOf join t u primary.table secondary.table row := by
    rw [Join.pairings_checked joined.restriction]
    unfold shownOf
    dsimp only
    split
    · split <;> simp [joined.values_rowOf apart]
    · simp [joined.values_rowOf apart, Function.comp_def]
  rw [Select.rowsOf, List.map_map, pairings, List.map_flatMap, funext meant]
  simp only [Function.comp_def, each]

/-- The answer to a query of two tables. -/
theorem of_select {db : Database} {found : List Row}
    (joined : q.Joined s join t u condition sel) (answered : db.select sel = .ok found) :
    ∃ primary secondary, db.source t.name = .ok primary ∧ db.source u.name = .ok secondary ∧
      ∃ all : List (List Value), found.map (·.values) = all.drop q.offset ∧
        all.Perm ((primary.table.rows.filter fun row =>
          (q.filter.truth (t.entryTruth (primary.table.conditionTruth row))).holds).flatMap
            (q.shownOf join t u primary.table secondary.table)) := by
  obtain ⟨⟨primary, second⟩, prepared, run⟩ := bind_eq_ok_iff.mp answered
  obtain ⟨here, there, _⟩ := Database.of_prepareSelect prepared
  have apart := Database.apart_of_prepared prepared joined.side
  rw [joined.side] at there
  obtain ⟨secondary, next, whole⟩ := bind_eq_ok_iff.mp there
  cases whole
  unfold Database.runSelect at run
  obtain ⟨_, rest⟩ := refuse_eq_ok_iff.mp run
  obtain ⟨rows, lists, listed⟩ :=
    Select.exists_lists sel ⟨primary, some secondary⟩ joined.alone
  rw [listed] at rest
  cases rest
  refine ⟨primary, secondary, joined.table ▸ here, next,
    rows.map fun r => r.cells.map Cell.toValue, ?_, ?_⟩
  · simp [Select.page, joined.limit, joined.offset, Function.comp_def]
  · rw [← joined.values_rowsOf (joined.table ▸ apart)]
    exact (lists.all joined.distinct).map _

/-- The query is answered by every store that has what its catalog describes, if its text can be
read, its conditions are not nested too deep, and not too many rows are left out. -/
theorem exists_select {db : Database} (joined : q.Joined s join t u condition sel)
    (accepted : q.plan s = .ok sel) (described : s.Describes db)
    (columns : ∀ name t, s.resolve name = .ok t → t.columns ≠ []) (different : ¬ q.JoinsItself)
    (whole : Sql.requireWhole sel.statement.sql = .ok ())
    (written : Sql.requireShallow sel.writtenDepth = .ok ())
    (shallow : Sql.requireShallow sel.depth = .ok ()) (left : q.offset ≤ Select.greatestPage) :
    ∃ found, db.select sel = .ok found := by
  obtain ⟨sources, primary, secondary, one, _⟩ := checkColumn_of_plan described columns accepted
  have prepared := (Database.prepareSelect_eq_ok_iff primary secondary).mpr
    ⟨rfl, whole, written, shallow, fun m listed => (one different m listed).2⟩
  obtain ⟨rows, _, listed⟩ := Select.exists_lists sel sources joined.alone
  have unlimited : sel.limit ≤ Select.greatestPage := joined.limit ▸ Nat.zero_le _
  have answered := @Database.runSelect_of_page sel sources unlimited (joined.offset ▸ left)
  rw [listed] at answered
  exact ⟨_, bind_eq_ok_iff.mpr ⟨sources, prepared, answered⟩⟩

end Joined

/-- The condition of a join restricts the joined side only. A query that joins two tables, and shows
all of their rows one by one, writes the condition of its join between the tables and binds its
values before those of its filter. Its answer consists of what is shown of each row of the queried
table that satisfies the filter: the row with each of its partners, which are the rows of the joined
table that agree with it in the columns of the join and satisfy the condition; or, if it has no
partner, the row alone with nulls in an outer join and nothing in an inner one. So an outer join
shows every such row, whatever its condition is. The query is answered by a store that its catalog
describes unless it joins a table with itself or the store cannot read its text. -/
theorem join_restricts_partners (accepted : q.plan s = .ok sel) (rows : q.JoinsRows join) :
    ∃ t u condition, q.Joined s join t u condition sel ∧
      sel.statement.params = condition.values ++ sel.condition.values ∧
      Sql.Binds sel.statement.sql sel.statement.params sel.filled ∧
      (∀ db found, Database.select db sel = .ok found →
        ∃ primary secondary, db.source t.name = .ok primary ∧ db.source u.name = .ok secondary ∧
          ∃ all : List (List Value), found.map (·.values) = all.drop q.offset ∧
            all.Perm ((primary.table.rows.filter fun row =>
              (q.filter.truth (t.entryTruth (primary.table.conditionTruth row))).holds).flatMap
                (q.shownOf join t u primary.table secondary.table)) ∧
            (join.outer = true → ∀ row ∈ primary.table.rows,
              q.filter.truth (t.entryTruth (primary.table.conditionTruth row)) = .yes →
                ∃ shown ∈ q.shownOf join t u primary.table secondary.table row, shown ∈ all)) ∧
      ∀ db, s.Describes db → (∀ name t, s.resolve name = .ok t → t.columns ≠ []) →
        ¬ q.JoinsItself → Sql.requireWhole sel.statement.sql = .ok () →
        Sql.requireShallow sel.writtenDepth = .ok () → Sql.requireShallow sel.depth = .ok () →
        q.offset ≤ Select.greatestPage → ∃ found, Database.select db sel = .ok found := by
  obtain ⟨t, u, condition, joined⟩ := joined_of_plan accepted rows
  have built : q.build s = .ok sel.statement := bind_eq_ok_iff.mpr ⟨sel, accepted, rfl⟩
  obtain ⟨_, _, planned, _, _, _, params, binds⟩ := binds_of_build built
  cases accepted.symm.trans planned
  have values : sel.joinValues = condition.values := by
    simp [Select.joinValues, joined.side, Join.checked]
  refine ⟨t, u, condition, joined, values ▸ params, binds, fun db found answered => ?_,
    fun db described columns different whole written shallow left =>
      joined.exists_select accepted described columns different whole written shallow left⟩
  obtain ⟨primary, secondary, here, there, all, shown, perm⟩ := joined.of_select answered
  refine ⟨primary, secondary, here, there, all, shown, perm, fun outer row listed holds => ?_⟩
  obtain ⟨values, of⟩ := List.exists_mem_of_ne_nil _ (shownOf_ne_nil outer row)
  refine ⟨values, of, perm.mem_iff.mpr (List.mem_flatMap.mpr ⟨row, ?_, of⟩)⟩
  exact List.mem_filter.mpr ⟨listed, Truth.holds_iff.mpr holds⟩

end Query

/-! ## An office -/

def ownDesks (condition : Filter) : Join where
  primaryTable := "staff"
  primaryColumn := "id"
  secondaryTable := "desks"
  secondaryColumn := "owner"
  columns := ["id"]
  outer := true
  condition := condition

/-- The staff, each with the desks that satisfy a condition. -/
def seating (condition : Filter) : Query where
  table := "staff"
  columns := ["id"]
  filter := .entries [("id__gt", .scalar (.int 0))]
  join := some (ownDesks condition)

def seatingSelect (condition : Predicate) : Select where
  table := "staff"
  distinct := false
  projections := [.column "staff" "id", .column "desks" "id"]
  join := some ⟨"desks", true, "id", "owner", condition⟩
  condition := .condition ⟨"staff", "id", .gt, .value (.int 0)⟩
  groupBy := []
  order := none
  limit := 0
  offset := 0

def noDesks : Filter := .entries [("id__in", .list [])]

theorem join_restricts_partners_office :
    (seating noDesks).plan officeCatalog = .ok (seatingSelect (.const false)) ∧
    (seating noDesks).JoinsRows (ownDesks noDesks) ∧
    ∃ found, office.select (seatingSelect (.const false)) = .ok found ∧
      (found.map (·.values)).Perm [[.long 1, .null], [.long 2, .null]] := by
  have accepted : (seating noDesks).plan officeCatalog = .ok (seatingSelect (.const false)) := rfl
  have rows : (seating noDesks).JoinsRows (ownDesks noDesks) := ⟨rfl, rfl, rfl, rfl, rfl⟩
  obtain ⟨t, u, condition, joined, _, _, answer, answered⟩ :=
    Query.join_restricts_partners accepted rows
  have different : ¬ (seating noDesks).JoinsItself := by
    rintro ⟨_, ⟨⟩, same⟩
    exact absurd same (by decide)
  obtain ⟨found, selected⟩ := answered office officeCatalog_describes officeCatalog_columns
    different (by decide +kernel) (by decide +kernel) (by decide +kernel) (by decide)
  refine ⟨accepted, rows, found, selected, ?_⟩
  obtain ⟨primary, secondary, here, there, all, shown, perm, _⟩ := answer office found selected
  cases joined.found
  cases joined.there
  cases here
  cases there
  rw [shown]
  refine perm.trans (.of_eq ?_)
  decide +kernel

end TableAccess
