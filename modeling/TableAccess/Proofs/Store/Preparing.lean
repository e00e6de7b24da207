import TableAccess.Proofs.Query.Grounded
import TableAccess.Proofs.Store.Discovery
import TableAccess.Store.Read

/-!
# Preparing queries

A query that was checked against a catalog can be matched by the database that the catalog
describes: its tables are found, and every column that it mentions is one of just one of them. The
exception is a join of the queried table with itself. A statement calls its tables by their names,
so in such a join every column is one of both.
-/

namespace TableAccess

/-! ## Sources -/

def Source.Shows (source : Source) (field : String) : Prop :=
  (source.table.definition.position? field).isSome = true

/-- A source has the columns that stand, one for each, for the columns of its table. -/
theorem Source.shows_of_hasColumn {t : StoredTable} {described : Table}
    {change : StoredColumn → Column}
    (columns : described.columns = t.definition.columns.map change)
    (names : ∀ c, (change c).name = c.name) (viewed : Bool) {field : String}
    (known : described.hasColumn field = true) : Source.Shows ⟨t, viewed⟩ field := by
  obtain ⟨_, listed, rfl⟩ := Table.hasColumn_iff.mp known
  rw [columns] at listed
  obtain ⟨c, member, rfl⟩ := List.mem_map.mp listed
  rw [names]
  exact Definition.position?_isSome member

/-- What is described is read from a source that has the described columns. -/
theorem Database.source_of_describe {db : Database} {name : String} {described : Table}
    (shown : db.describe name = .ok (some described)) : ∃ source, db.source name = .ok source ∧
      ∀ field, described.hasColumn field = true → source.Shows field := by
  rcases describe_cases shown with ⟨t, here, rfl⟩ | ⟨v, t, missing, viewed, under, rfl⟩
  · exact ⟨⟨t, false⟩, by rw [source, here],
      fun _ known => Source.shows_of_hasColumn rfl (fun _ => rfl) false known⟩
  · exact ⟨⟨t, true⟩, by simp [source, missing, viewed, under],
      fun _ known => Source.shows_of_hasColumn rfl (fun _ => rfl) true known⟩

/-- Tables of a catalog have different names, whatever the case of their letters. -/
theorem Snapshot.Describes.eq_of_same {s : Snapshot} {db : Database} {first second : String}
    {t u : Table} (described : s.Describes db) (here : s.resolve first = .ok t)
    (there : s.resolve second = .ok u) (same : Text.same first second = true) :
    first = second := by
  obtain ⟨own, shown⟩ := described first t here
  obtain ⟨other, shown'⟩ := described second u there
  rw [Database.describe_congr same, shown'] at shown
  cases shown
  exact own.symm.trans other

namespace Select

variable {sel : Select} {sources : Sources} {table field : String} {first second : Source}

/-- The queried table's name stands for the queried table alone, unless the joined one has it too.
-/
theorem sourcesOf_table (apart : ∀ j, sel.join = some j → Text.same sel.table j.table = false) :
    sel.sourcesOf sources sel.table = [sources.primary] := by
  have same : Text.same sel.table sel.table = true := Text.same_iff.mpr rfl
  cases side : sel.join with
  | none => simp [sourcesOf, same, side]
  | some j =>
      have differ := apart j side
      cases there : sources.secondary <;> simp [sourcesOf, same, side, there, differ]

theorem sourcesOf_join {j : JoinedTable} (side : sel.join = some j)
    (there : sources.secondary = some second) (apart : Text.same sel.table j.table = false) :
    sel.sourcesOf sources j.table = [second] := by
  have same : Text.same j.table j.table = true := Text.same_iff.mpr rfl
  have differ : Text.same j.table sel.table = false := by rwa [Text.same_comm]
  simp [sourcesOf, same, side, there, differ]

/-- A name that both tables have stands for both. -/
theorem sourcesOf_both {j : JoinedTable} (side : sel.join = some j)
    (there : sources.secondary = some second) (named : Text.same sel.table j.table = true) :
    sel.sourcesOf sources sel.table = [sources.primary, second] := by
  have same : Text.same sel.table sel.table = true := Text.same_iff.mpr rfl
  simp [sourcesOf, same, side, there, named]

theorem checkColumn_of_one (only : sel.sourcesOf sources table = [first])
    (shown : first.Shows field) : sel.checkColumn sources table field = .ok () := by
  unfold Source.Shows at shown
  simp [checkColumn, only, shown]

theorem checkColumn_of_two (both : sel.sourcesOf sources table = [first, second])
    (shown : first.Shows field) (shown' : second.Shows field) :
    sel.checkColumn sources table field = .error (.ambiguousColumn table field) := by
  unfold Source.Shows at shown shown'
  simp [checkColumn, both, shown, shown']

/-- A column of a source that stands for two is not one of just one. -/
theorem checkColumn_of_twins (both : sel.sourcesOf sources table = [first, first]) :
    sel.checkColumn sources table field ≠ .ok () := by
  unfold checkColumn
  rw [both]
  cases named : (first.table.definition.position? field).isSome <;>
    cases held : first.hasColumn field <;> simp [named, held]

end Select

/-- A matched query has found its tables, and each column that it mentions in just one of them. -/
theorem Database.of_prepareSelect {db : Database} {sel : Select} {sources : Sources}
    (prepared : db.prepareSelect sel = .ok sources) :
    db.source sel.table = .ok sources.primary ∧
      (sel.join.mapM fun j => db.source j.table) = .ok sources.secondary ∧
      Sql.requireWhole sel.statement.sql = .ok () ∧ Sql.requireShallow sel.writtenDepth = .ok () ∧
      Sql.requireShallow sel.depth = .ok () ∧
      ∀ m ∈ sel.mentions, sel.checkColumn sources m.table m.field = .ok () := by
  obtain ⟨_, whole, rest⟩ := bind_eq_ok_iff.mp prepared
  obtain ⟨_, written, rest⟩ := bind_eq_ok_iff.mp rest
  obtain ⟨_, first, rest⟩ := bind_eq_ok_iff.mp rest
  obtain ⟨_, second, rest⟩ := bind_eq_ok_iff.mp rest
  obtain ⟨_, shallow, rest⟩ := bind_eq_ok_iff.mp rest
  obtain ⟨_, checked, rest⟩ := bind_eq_ok_iff.mp rest
  cases rest
  exact ⟨first, second, whole, written, shallow, fun m listed =>
    mapError_eq_ok_iff.mp (forM_eq_ok checked m listed)⟩

/-- A query is matched exactly if its text can be read, its conditions are not nested too deep, and
every column that it mentions is one of just one table. -/
theorem Database.prepareSelect_eq_ok_iff {db : Database} {sel : Select} {sources found : Sources}
    (primary : db.source sel.table = .ok sources.primary)
    (secondary : (sel.join.mapM fun j => db.source j.table) = .ok sources.secondary) :
    db.prepareSelect sel = .ok found ↔ found = sources ∧
      Sql.requireWhole sel.statement.sql = .ok () ∧ Sql.requireShallow sel.writtenDepth = .ok () ∧
      Sql.requireShallow sel.depth = .ok () ∧
      ∀ m ∈ sel.mentions, sel.checkColumn sources m.table m.field = .ok () := by
  constructor
  · intro prepared
    obtain ⟨first, second, rest⟩ := of_prepareSelect prepared
    have same : found = sources := by
      cases found
      cases sources
      cases primary.symm.trans first
      cases secondary.symm.trans second
      rfl
    exact ⟨same, same ▸ rest⟩
  · rintro ⟨rfl, whole, written, shallow, columns⟩
    have checked : (sel.mentions.forM fun m => (sel.checkColumn found m.table m.field).mapError
        (m.locate sel.statement.sql)) = .ok () :=
      forM_eq_ok_iff.mpr fun m listed => mapError_eq_ok_iff.mpr (columns m listed)
    exact bind_eq_ok_iff.mpr ⟨(), whole, bind_eq_ok_iff.mpr ⟨(), written,
      bind_eq_ok_iff.mpr ⟨_, primary, bind_eq_ok_iff.mpr ⟨_, secondary,
        bind_eq_ok_iff.mpr ⟨(), shallow, bind_eq_ok_iff.mpr ⟨(), checked, rfl⟩⟩⟩⟩⟩⟩

/-- Rows are selected unless the page is one that no statement can hold. -/
theorem Database.runSelect_of_page {sel : Select} {sources : Sources}
    (limited : sel.limit ≤ Select.greatestPage) (left : sel.offset ≤ Select.greatestPage) :
    runSelect sel sources = (sel.allRows sources).map fun rows =>
      (sel.page rows).map fun cells => ⟨sel.columnNames sources, cells.map Cell.toValue⟩ := by
  have held : ¬ (Select.greatestPage < sel.limit ∨ Select.greatestPage < sel.offset) := by omega
  unfold runSelect
  rw [if_neg held]
  cases sel.allRows sources <;> rfl

/-! ## Accepted queries -/

namespace Query

variable {q : Query} {s : Snapshot} {sel : Select} {db : Database}

/-- A query joins the queried table with itself. -/
def JoinsItself (q : Query) : Prop := ∃ join, q.join = some join ∧ join.secondaryTable = q.table

/-- Sources of an accepted query, which have the columns of its tables. -/
structure Located (q : Query) (s : Snapshot) (t : Table) (db : Database) (sel : Select)
    (sources : Sources) : Prop where
  primary : db.source sel.table = .ok sources.primary
  secondary : (sel.join.mapM fun j => db.source j.table) = .ok sources.secondary
  own : ∀ field, t.hasColumn field = true → sources.primary.Shows field
  other : ∀ join second, q.join = some join → s.resolve join.secondaryTable = .ok second →
    ∃ source, sources.secondary = some source ∧
      ∀ field, second.hasColumn field = true → source.Shows field

namespace Planned

variable {t : Table} {joined : Option (Join × Table)} {sources : Sources} {table field : String}

/-- A database has the tables of every query that was accepted against a catalog of it. -/
theorem located (described : s.Describes db) (planned : q.Planned s t joined sel) :
    ∃ sources, q.Located s t db sel sources := by
  obtain ⟨own, shown⟩ := described _ t planned.found
  obtain ⟨primary, first, columns⟩ := Database.source_of_describe shown
  rw [← own, ← planned.table] at first
  rcases planned.sides with ⟨alone, unjoined⟩ | ⟨join, second, condition, asked, there, _, _, _,
    side⟩
  · refine ⟨⟨primary, none⟩, first, ?_, columns, fun join _ asked => ?_⟩
    · rw [unjoined]
      rfl
    · cases alone.symm.trans asked
  · obtain ⟨own', shown'⟩ := described _ second there
    obtain ⟨secondary, next, columns'⟩ := Database.source_of_describe shown'
    refine ⟨⟨primary, some secondary⟩, first, ?_, columns, fun join' second' asked' there' => ?_⟩
    · rw [side]
      simp [own', next]
    · cases asked.symm.trans asked'
      cases there.symm.trans there'
      exact ⟨secondary, rfl, columns'⟩

/-- A column that may be mentioned is one of the queried table, or one of the joined one. -/
theorem column_cases (planned : q.Planned s t joined sel) (column : q.Column s table field) :
    table = sel.table ∧ t.hasColumn field = true ∨ ∃ join second j, q.join = some join ∧
      s.resolve join.secondaryTable = .ok second ∧ sel.join = some j ∧ j.table = second.name ∧
      table = second.name ∧ second.hasColumn field = true := by
  rcases column with ⟨found, known⟩ | ⟨asked, there, known⟩
  · cases planned.found.symm.trans found
    exact .inl ⟨planned.table.symm, known⟩
  · rcases planned.sides with ⟨alone, _⟩ | ⟨join, second, condition, asked', there', _, _, _, side⟩
    · cases alone.symm.trans asked
    · cases asked.symm.trans asked'
      cases there.symm.trans there'
      exact .inr ⟨_, _, _, asked, there, side, rfl, rfl, known⟩

/-- Unless the queried table is joined with itself, the joined one has another name. -/
theorem apart (described : s.Describes db) (planned : q.Planned s t joined sel)
    (apart : ¬ q.JoinsItself) : ∀ j, sel.join = some j → Text.same sel.table j.table = false := by
  rcases planned.sides with ⟨_, unjoined⟩ | ⟨join, second, condition, asked, there, _, _, _, side⟩
  · rw [unjoined]
    exact nofun
  · rw [side]
    rintro _ ⟨⟩
    refine eq_false_of_ne_true fun equal => apart ⟨join, asked, ?_⟩
    rw [planned.table, (described _ t planned.found).1, (described _ second there).1] at equal
    exact (described.eq_of_same planned.found there equal).symm

theorem one_source (described : s.Describes db) (planned : q.Planned s t joined sel)
    (located : q.Located s t db sel sources) (joins : ¬ q.JoinsItself)
    (column : q.Column s table field) :
    ∃ source, sel.sourcesOf sources table = [source] ∧ source.Shows field := by
  have apart := planned.apart described joins
  rcases planned.column_cases column with ⟨rfl, known⟩ | ⟨join, second, j, asked, there, side,
    named, rfl, known⟩
  · exact ⟨sources.primary, Select.sourcesOf_table apart, located.own field known⟩
  · obtain ⟨source, here, columns⟩ := located.other join second asked there
    rw [← named]
    exact ⟨source, Select.sourcesOf_join side here (apart j side), columns field known⟩

theorem two_sources (planned : q.Planned s t joined sel)
    (located : q.Located s t db sel sources) (itself : q.JoinsItself)
    (column : q.Column s table field) : ∃ first second,
      sel.sourcesOf sources table = [first, second] ∧ first.Shows field ∧ second.Shows field := by
  obtain ⟨join, asked, same⟩ := itself
  have there : s.resolve join.secondaryTable = .ok t := same ▸ planned.found
  obtain ⟨source, here, columns⟩ := located.other join t asked there
  rcases planned.sides with ⟨alone, _⟩ | ⟨join', second, condition, asked', there', _, _, _, side⟩
  · cases alone.symm.trans asked
  · cases asked.symm.trans asked'
    cases there.symm.trans there'
    have known : table = sel.table ∧ t.hasColumn field = true := by
      rcases planned.column_cases column with own | ⟨_, _, _, asked', there', _, _, rfl, known⟩
      · exact own
      · cases asked.symm.trans asked'
        cases there.symm.trans there'
        exact ⟨planned.table.symm, known⟩
    obtain ⟨rfl, known⟩ := known
    exact ⟨sources.primary, source,
      Select.sourcesOf_both side here (Text.same_iff.mpr (by rw [planned.table])),
      located.own field known, columns field known⟩

end Planned

/-- Of the columns that an accepted query mentions, each is one of just one of its tables, unless
the queried table is joined with itself. Then no mention is clear. -/
theorem checkColumn_of_plan (described : s.Describes db)
    (columns : ∀ name t, s.resolve name = .ok t → t.columns ≠ []) (accepted : q.plan s = .ok sel) :
    ∃ sources : Sources, db.source sel.table = .ok sources.primary ∧
      (sel.join.mapM fun j => db.source j.table) = .ok sources.secondary ∧
      (¬ q.JoinsItself → ∀ m ∈ sel.mentions,
        (∃ source, sel.sourcesOf sources m.table = [source] ∧ source.Shows m.field) ∧
          sel.checkColumn sources m.table m.field = .ok ()) ∧
      (q.JoinsItself → ∀ m ∈ sel.mentions,
        sel.checkColumn sources m.table m.field = .error (.ambiguousColumn m.table m.field)) := by
  have grounded := grounded_of_plan accepted (columns q.table)
  obtain ⟨t, joined, planned⟩ := planned_of_plan accepted
  obtain ⟨sources, located⟩ := planned.located described
  refine ⟨sources, located.primary, located.secondary, fun apart m listed => ?_,
    fun itself m listed => ?_⟩
  · obtain ⟨source, only, shows⟩ :=
      planned.one_source described located apart (grounded.mentions m listed)
    exact ⟨⟨source, only, shows⟩, Select.checkColumn_of_one only shows⟩
  · obtain ⟨first, second, both, shows, shows'⟩ :=
      planned.two_sources located itself (grounded.mentions m listed)
    exact Select.checkColumn_of_two both shows shows'

/-- A query that is accepted against the catalog of a store is a statement that shows something,
has no empty group or list, is ordered by nothing but a column or the label of an aggregate that it
shows, and has the page that was asked for. The store finds its tables. Unless the queried table is
joined with itself, every column that it mentions is one of exactly one of them. The store prepares
it if also no NUL cuts its text short and its conditions are not nested too deep, and then it
selects rows if the page is one that a statement can hold. -/
theorem accepted_is_prepared (described : s.Describes db)
    (columns : ∀ name t, s.resolve name = .ok t → t.columns ≠ []) (accepted : q.plan s = .ok sel) :
    q.build s = .ok sel.statement ∧ sel.Grounded (q.Column s) ∧
    sel.limit = q.limit ∧ sel.offset = q.offset ∧
    ∃ sources : Sources, db.source sel.table = .ok sources.primary ∧
      (sel.join.mapM fun j => db.source j.table) = .ok sources.secondary ∧
      (¬ q.JoinsItself → ∀ m ∈ sel.mentions,
        (∃ source, sel.sourcesOf sources m.table = [source] ∧ source.Shows m.field) ∧
          sel.checkColumn sources m.table m.field = .ok ()) ∧
      (q.JoinsItself → ∀ m ∈ sel.mentions, sel.checkColumn sources m.table m.field =
        .error (.ambiguousColumn m.table m.field)) ∧
      (db.prepareSelect sel = .ok sources ↔ ¬ q.JoinsItself ∧
        Sql.requireWhole sel.statement.sql = .ok () ∧
        Sql.requireShallow sel.writtenDepth = .ok () ∧ Sql.requireShallow sel.depth = .ok ()) ∧
      (db.prepareSelect sel = .ok sources → q.limit ≤ Select.greatestPage →
        q.offset ≤ Select.greatestPage →
        db.select sel = (sel.allRows sources).map fun rows =>
          (sel.page rows).map fun cells => ⟨sel.columnNames sources, cells.map Cell.toValue⟩) := by
  have grounded := grounded_of_plan accepted (columns q.table)
  obtain ⟨_, _, planned⟩ := planned_of_plan accepted
  obtain ⟨sources, primary, secondary, apart, itself⟩ :=
    checkColumn_of_plan described columns accepted
  refine ⟨bind_eq_ok_iff.mpr ⟨sel, accepted, rfl⟩, grounded, planned.limit, planned.offset, sources,
    primary, secondary, apart, itself, ?_, fun prepared limited left => ?_⟩
  · rw [Database.prepareSelect_eq_ok_iff primary secondary]
    constructor
    · rintro ⟨-, whole, written, shallow, checked⟩
      -- some column is mentioned, and a join of a table with itself would make it ambiguous
      refine ⟨fun joined => ?_, whole, written, shallow⟩
      obtain ⟨m, rest, some⟩ := List.exists_cons_of_ne_nil grounded.mentions_ne_nil
      have listed : m ∈ sel.mentions := by rw [some]; exact List.mem_cons_self
      cases (checked m listed).symm.trans (itself joined m listed)
    · rintro ⟨joined, whole, written, shallow⟩
      exact ⟨rfl, whole, written, shallow, fun m listed => (apart joined m listed).2⟩
  · rw [← planned.limit] at limited
    rw [← planned.offset] at left
    unfold Database.select
    rw [prepared]
    exact Database.runSelect_of_page limited left

end Query

/-! ## An office -/

def staff (rows : List StoredRow) : StoredTable where
  definition :=
    { name := "staff"
      columns :=
        [{ name := "id", declared := "INTEGER", primaryKey := true },
          { name := "boss", declared := "INTEGER" }] }
  rows

def desks (rows : List StoredRow) : StoredTable where
  definition :=
    { name := "desks"
      columns :=
        [{ name := "id", declared := "INTEGER", primaryKey := true },
          { name := "owner", declared := "INTEGER" }] }
  rows

/-- Two people, the second of whom works for the first and has a desk. -/
def office : Database :=
  ⟨[desks [⟨7, [.integer 7, .integer 2]⟩],
    staff [⟨1, [.integer 1, .null]⟩, ⟨2, [.integer 2, .integer 1]⟩]], []⟩

def officeCatalog : Snapshot :=
  .ofList [(desks []).definition.describe, (staff []).definition.describe]

/-- The staff, joined with what belongs to them in another table. -/
def withOwn (table column : String) : Query where
  table := "staff"
  columns := ["id"]
  join := some
    { primaryTable := "staff", primaryColumn := "id", secondaryTable := table,
      secondaryColumn := column, columns := ["id"] }
  limit := 5

def withOwnSelect (table column : String) : Select where
  table := "staff"
  distinct := false
  projections := [.column "staff" "id", .column table "id"]
  join := some ⟨table, false, "id", column, .unrestricted⟩
  condition := .unrestricted
  groupBy := []
  order := none
  limit := 5
  offset := 0

def firstStaff (limit : Nat) : Query where
  table := "staff"
  columns := ["id"]
  limit := limit

def firstStaffSelect (limit : Nat) : Select where
  table := "staff"
  distinct := false
  projections := [.column "staff" "id"]
  join := none
  condition := .unrestricted
  groupBy := []
  order := none
  limit := limit
  offset := 0

theorem officeCatalog_describes : officeCatalog.Describes office := by
  have discovered : office.discover =
      .ok [(desks []).definition.describe, (staff []).definition.describe] := by
    unfold Database.discover
    dsimp only
    rw [List.mergeSort_of_pairwise (by decide)]
    rfl
  exact Snapshot.describes_of_discover (congrArg (Except.map Snapshot.ofList) discovered)

theorem officeCatalog_columns (name : String) (t : Table)
    (found : officeCatalog.resolve name = .ok t) : t.columns ≠ [] := by
  obtain ⟨listed, _⟩ := Snapshot.of_resolve found
  rcases List.mem_pair.mp listed with rfl | rfl <;> exact List.cons_ne_nil _ _

theorem accepted_is_prepared_office :
    officeCatalog.Describes office ∧
    (∀ name t, officeCatalog.resolve name = .ok t → t.columns ≠ []) ∧
    (withOwn "desks" "owner").plan officeCatalog = .ok (withOwnSelect "desks" "owner") ∧
    office.select (withOwnSelect "desks" "owner") = .ok [⟨["id", "id"], [.long 2, .long 7]⟩] := by
  have accepted : (withOwn "desks" "owner").plan officeCatalog =
      .ok (withOwnSelect "desks" "owner") := rfl
  obtain ⟨_, _, _, _, ⟨first, second⟩, primary, secondary, _, _, prepared, selects⟩ :=
    Query.accepted_is_prepared officeCatalog_describes officeCatalog_columns accepted
  have apart : ¬ (withOwn "desks" "owner").JoinsItself := by
    rintro ⟨_, ⟨⟩, same⟩
    exact absurd same (by decide)
  have read := selects (prepared.mpr ⟨apart, by decide +kernel, by decide +kernel,
    by decide +kernel⟩) (by decide) (by decide)
  refine ⟨officeCatalog_describes, officeCatalog_columns, accepted, read.trans ?_⟩
  cases primary
  cases secondary
  decide +kernel

/-- The staff cannot be joined with the staff, and no limit can be 2⁶³ or more, though both are
accepted. -/
theorem accepted_is_refused_office :
    officeCatalog.Describes office ∧
    (∀ name t, officeCatalog.resolve name = .ok t → t.columns ≠ []) ∧
    (withOwn "staff" "boss").build officeCatalog = .ok (withOwnSelect "staff" "boss").statement ∧
    office.select (withOwnSelect "staff" "boss") =
      .error (.located (.ambiguousColumn "staff" "id")
        (withOwnSelect "staff" "boss").statement.sql 7) ∧
    (firstStaff (Nat.pow 2 63)).build officeCatalog =
      .ok (firstStaffSelect (Nat.pow 2 63)).statement ∧
    office.select (firstStaffSelect (Nat.pow 2 63)) = .error .datatypeMismatch :=
  ⟨officeCatalog_describes, officeCatalog_columns, rfl, by decide +kernel, rfl, by decide +kernel⟩

end TableAccess
