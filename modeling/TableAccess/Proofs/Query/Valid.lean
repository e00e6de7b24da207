import TableAccess.Proofs.Filter.WellFormed
import TableAccess.Proofs.Query.Compilation
import TableAccess.Proofs.Schema.Snapshot
import TableAccess.Query.Written

/-!
# Valid queries

What a query has to satisfy to be accepted, and everything that can be wrong with it in the
order in which it is found: the tables, the shown columns, the aggregates, the filter, the
join, the grouping, the ordering. Exactly the valid queries are written as statements, and any
other is refused with the first of its defects.
-/

namespace TableAccess

/-! ## Valid parts -/

namespace Aggregate

def functions : List String := ["count", "sum", "avg", "min", "max"]

def arithmetic : List String := ["sum", "avg"]

/-- An aggregate fits a table if its function exists and takes the named column. -/
structure Fits (t : Table) (a : Aggregate) : Prop where
  function : a.function ∈ functions
  column : t.hasColumn a.column = true
  numbers : a.function ∈ arithmetic → ∀ c, t.column? a.column = some c → c.type.isNumeric = true

end Aggregate

/-- A join fits its two tables if they have the columns that it names, and its condition
compiles against the second one. -/
structure Join.Fits (t second : Table) (join : Join) : Prop where
  shown : ∀ name ∈ join.columns, second.hasColumn name = true
  primaryColumn : t.hasColumn join.primaryColumn = true
  secondaryColumn : second.hasColumn join.secondaryColumn = true
  condition : ∃ p, second.compile join.condition = .ok p

namespace Query

/-- A query fits its table, the join apart. -/
structure Fits (t : Table) (q : Query) : Prop where
  shown : ∀ name ∈ q.columns, t.hasColumn name = true
  aggregates : ∀ a ∈ q.aggregates, a.Fits t
  filter : ∃ p, t.compile q.filter = .ok p
  groupBy : ∀ name ∈ q.groupBy, t.hasColumn name = true
  order : ∀ name, q.order = some name →
    t.hasColumn name = true ∨ ∃ a ∈ q.aggregates, a.label = name

/-- A query is valid if its tables are in the catalog, a join starts from the queried table,
and everything fits these tables. -/
inductive Valid (s : Snapshot) (q : Query) : Prop where
  | of (t : Table) (queried : s.tables.get? q.table = some t) (fits : q.Fits t)
      (joined : ∀ join, q.join = some join → join.primaryTable = q.table ∧
        ∃ second, s.tables.get? join.secondaryTable = some second ∧ join.Fits t second)

end Query

/-! ## Defects -/

def Table.missing (t : Table) (names : List String) : List Error :=
  (names.filter fun name => !t.hasColumn name).map (.unknownColumn t.name)

/-- The name of a table, if it is not in the catalog. -/
def Snapshot.missing (s : Snapshot) (name : String) : List Error :=
  if (s.tables.get? name).isSome then [] else [.unknownTable name]

/-- What is wrong with an aggregate: its function, its column, or that the function needs
numbers where the column has none. -/
def Aggregate.defects (t : Table) (a : Aggregate) : List Error :=
  (if a.function ∈ functions then [] else [.unsupportedAggregate a.label a.function])
    ++ t.missing [a.column]
    ++ if a.function ∈ arithmetic ∧ (t.column? a.column).any (!·.type.isNumeric) then
        [.unsupportedAggregate a.label a.function]
      else []

def Join.tableDefects (s : Snapshot) (table : String) (join : Join) : List Error :=
  (if join.primaryTable = table then [] else [joinFromElsewhere join table])
    ++ s.missing join.secondaryTable

/-- What is wrong with the columns that a join compares, and with its condition. -/
def Join.defects (t second : Table) (join : Join) : List Error :=
  t.missing [join.primaryColumn] ++ second.missing [join.secondaryColumn]
    ++ join.condition.defects second

namespace Query

def orderDefects (t : Table) (q : Query) : List Error :=
  match q.order with
  | none => []
  | some name =>
      if t.hasColumn name = true ∨ ∃ a ∈ q.aggregates, a.label = name then []
      else [.unknownColumn t.name name]

def shownDefects (t : Table) (joined : Option (Join × Table)) (q : Query) : List Error :=
  t.missing q.columns
    ++ joined.toList.flatMap (fun (join, second) => second.missing join.columns)
    ++ q.aggregates.flatMap (·.defects t)

/-- What is wrong with a query whose tables were found. -/
def partDefects (t : Table) (joined : Option (Join × Table)) (q : Query) : List Error :=
  q.shownDefects t joined
    ++ q.filter.defects t
    ++ joined.toList.flatMap (fun (join, second) => join.defects t second)
    ++ t.missing q.groupBy
    ++ q.orderDefects t

def joined? (s : Snapshot) (q : Query) : Option (Join × Table) := do
  let join ← q.join
  let second ← s.tables.get? join.secondaryTable
  pure (join, second)

/-- What is wrong with a query: its tables, and then, if the queried one was found, its parts. -/
def defects (s : Snapshot) (q : Query) : List Error :=
  s.missing q.table
    ++ q.join.toList.flatMap (·.tableDefects s q.table)
    ++ (s.tables.get? q.table).toList.flatMap fun t => q.partDefects t (q.joined? s)

end Query

/-! ## Nothing wrong -/

theorem Table.missing_eq_nil_iff {t : Table} {names : List String} :
    t.missing names = [] ↔ ∀ name ∈ names, t.hasColumn name = true := by
  simp [missing]

theorem Table.missing_singleton_eq_nil_iff {t : Table} {name : String} :
    t.missing [name] = [] ↔ t.hasColumn name = true := by
  simp [missing_eq_nil_iff]

theorem Snapshot.missing_eq_nil_iff {s : Snapshot} {name : String} :
    s.missing name = [] ↔ ∃ t, s.tables.get? name = some t := by
  simp [missing, Option.isSome_iff_exists]

theorem Aggregate.defects_eq_nil_iff {t : Table} {a : Aggregate} :
    a.defects t = [] ↔ a.Fits t := by
  unfold defects
  rw [List.append_eq_nil_iff, List.append_eq_nil_iff, Table.missing_singleton_eq_nil_iff]
  constructor
  · rintro ⟨⟨function, column⟩, numbers⟩
    refine ⟨by simpa using function, column, fun needed c found => ?_⟩
    simpa [needed, found] using numbers
  · rintro ⟨function, column, numbers⟩
    refine ⟨⟨by simp [function], column⟩, ?_⟩
    rw [if_neg]
    rintro ⟨needed, text⟩
    obtain ⟨c, found, other⟩ := (Option.any_eq_true _ _).mp text
    simp [numbers needed c found] at other

theorem Filter.defects_eq_nil_iff {t : Table} {f : Filter} :
    f.defects t = [] ↔ ∃ p, t.compile f = .ok p :=
  (answers_compile f).exists_eq_ok_iff.symm

theorem Join.tableDefects_eq_nil_iff {s : Snapshot} {table : String} {join : Join} :
    join.tableDefects s table = [] ↔
      join.primaryTable = table ∧ ∃ second, s.tables.get? join.secondaryTable = some second := by
  rw [tableDefects, List.append_eq_nil_iff, Snapshot.missing_eq_nil_iff]
  simp

/-- A join has no defects, neither in what it shows nor elsewhere, exactly if it fits. -/
theorem Join.defects_eq_nil_iff {t second : Table} {join : Join} :
    second.missing join.columns = [] ∧ join.defects t second = [] ↔ join.Fits t second := by
  rw [defects, List.append_eq_nil_iff, List.append_eq_nil_iff, Table.missing_eq_nil_iff,
    Table.missing_singleton_eq_nil_iff, Table.missing_singleton_eq_nil_iff,
    Filter.defects_eq_nil_iff]
  exact ⟨fun ⟨shown, ⟨primary, secondary⟩, condition⟩ => ⟨shown, primary, secondary, condition⟩,
    fun fits => ⟨fits.shown, ⟨fits.primaryColumn, fits.secondaryColumn⟩, fits.condition⟩⟩

namespace Query

variable {s : Snapshot} {t : Table} {q : Query}

theorem orderDefects_eq_nil_iff : q.orderDefects t = [] ↔ ∀ name, q.order = some name →
    t.hasColumn name = true ∨ ∃ a ∈ q.aggregates, a.label = name := by
  unfold orderDefects
  cases q.order with
  | none => simp
  | some name =>
      dsimp only
      split
      · rename_i known
        simpa using known
      · rename_i unknown
        simpa using unknown

theorem partDefects_eq_nil_iff {joined : Option (Join × Table)} :
    q.partDefects t joined = [] ↔
      q.Fits t ∧ ∀ join second, joined = some (join, second) → join.Fits t second := by
  have sides : ∀ check : Join → Table → List Error,
      joined.toList.flatMap (fun (join, second) => check join second) = [] ↔
        ∀ join second, joined = some (join, second) → check join second = [] := by
    intro check
    rw [List.flatMap_eq_nil_iff]
    simp
  have aggregates : q.aggregates.flatMap (·.defects t) = [] ↔ ∀ a ∈ q.aggregates, a.Fits t := by
    rw [List.flatMap_eq_nil_iff]
    exact forall₂_congr fun a _ => a.defects_eq_nil_iff
  unfold partDefects shownDefects
  simp only [List.append_eq_nil_iff]
  rw [sides fun join second => second.missing join.columns,
    sides fun join second => join.defects t second, aggregates, Table.missing_eq_nil_iff,
    Table.missing_eq_nil_iff, Filter.defects_eq_nil_iff, orderDefects_eq_nil_iff]
  constructor
  · rintro ⟨⟨⟨⟨⟨⟨columns, shown⟩, aggregates⟩, filter⟩, join⟩, groupBy⟩, order⟩
    exact ⟨⟨columns, aggregates, filter, groupBy, order⟩, fun join' second side =>
      Join.defects_eq_nil_iff.mp ⟨shown join' second side, join join' second side⟩⟩
  · rintro ⟨fits, joined⟩
    have side (join : Join) (second : Table) (given : _ = some (join, second)) :=
      Join.defects_eq_nil_iff.mpr (joined join second given)
    exact ⟨⟨⟨⟨⟨⟨fits.shown, fun _ _ given => (side _ _ given).1⟩, fits.aggregates⟩, fits.filter⟩,
      fun _ _ given => (side _ _ given).2⟩, fits.groupBy⟩, fits.order⟩

/-- A query is valid exactly if nothing is wrong with it. -/
theorem valid_iff_defects_eq_nil : q.Valid s ↔ q.defects s = [] := by
  unfold defects
  simp only [List.append_eq_nil_iff, List.flatMap_eq_nil_iff, Option.mem_toList,
    Join.tableDefects_eq_nil_iff, partDefects_eq_nil_iff, Snapshot.missing_eq_nil_iff]
  have side (join : Join) (second : Table) : q.joined? s = some (join, second) ↔
      q.join = some join ∧ s.tables.get? join.secondaryTable = some second := by
    unfold joined?
    simp [Option.bind_eq_some_iff]
  constructor
  · rintro ⟨t, queried, fits, joined⟩
    refine ⟨⟨⟨t, queried⟩, fun join asked => ?tables⟩, fun t' found => ⟨?_, ?fits⟩⟩
    case tables =>
      obtain ⟨primary, second, found, _⟩ := joined join asked
      exact ⟨primary, second, found⟩
    all_goals
      cases Option.some.inj (queried.symm.trans found)
    · exact fits
    · intro join second found
      obtain ⟨asked, resolved⟩ := (side join second).mp found
      obtain ⟨_, other, same, fits⟩ := joined join asked
      cases Option.some.inj (resolved.symm.trans same)
      exact fits
  · rintro ⟨⟨⟨t, queried⟩, tables⟩, parts⟩
    obtain ⟨fits, joined⟩ := parts t queried
    refine ⟨t, queried, fits, fun join asked => ?_⟩
    obtain ⟨primary, second, found⟩ := tables join asked
    exact ⟨primary, second, found, joined join second ((side join second).mpr ⟨asked, found⟩)⟩

end Query

/-! ## Checks find the first defect -/

namespace Table

variable {t : Table}

theorem answers_requireColumn (name : String) :
    Answers (t.requireColumn name) (t.missing [name]) := by
  unfold requireColumn missing hasColumn
  cases found : t.column? name with
  | none => simpa [found] using Answers.error _ _
  | some c => simpa [found] using Answers.ok _

end Table

theorem Snapshot.answers_resolve (s : Snapshot) (name : String) :
    Answers (s.resolve name) (s.missing name) := by
  unfold resolve missing
  cases s.tables.get? name with
  | none => exact .error _ _
  | some t => exact .ok t

namespace AggregateFunction

theorem ofName?_eq_none_iff {name : String} :
    ofName? name = none ↔ name ∉ Aggregate.functions := by
  unfold ofName? Aggregate.functions
  grind

theorem isArithmetic_iff {name : String} {function : AggregateFunction}
    (read : ofName? name = some function) :
    function.isArithmetic = true ↔ name ∈ Aggregate.arithmetic := by
  unfold ofName? at read
  unfold Aggregate.arithmetic
  grind [isArithmetic]

end AggregateFunction

namespace Query

variable {s : Snapshot} {t : Table} {q : Query}

theorem answers_columnProjections (list : List String) :
    Answers (columnProjections t list) (t.missing list) := by
  induction list with
  | nil => exact .ok []
  | cons name rest ih =>
      have apart : t.missing (name :: rest) = t.missing [name] ++ t.missing rest := by
        simp only [Table.missing, ← List.map_append, ← List.filter_append, List.singleton_append]
      rw [apart]
      exact (t.answers_requireColumn name).bind fun _ _ => ih.bind_pure _

theorem answers_aggregateProjection (a : Aggregate) :
    Answers (aggregateProjection t a) (a.defects t) := by
  unfold aggregateProjection Aggregate.defects
  cases read : AggregateFunction.ofName? a.function with
  | none =>
      rw [if_neg (AggregateFunction.ofName?_eq_none_iff.mp read)]
      exact .error _ _
  | some function =>
      have known : a.function ∈ Aggregate.functions := by
        by_contra unknown
        rw [AggregateFunction.ofName?_eq_none_iff.mpr unknown] at read
        cases read
      rw [if_pos known]
      rw [List.nil_append]
      refine (t.answers_requireColumn a.column).bind fun c found => ?_
      have cause : (function.isArithmetic && !c.type.isNumeric) = true ↔
          a.function ∈ Aggregate.arithmetic ∧
            (t.column? a.column).any (!·.type.isNumeric) = true := by
        rw [Table.requireColumn_eq_ok_iff.mp found, ← AggregateFunction.isArithmetic_iff read,
          Bool.and_eq_true, Option.any_some]
      rw [← List.append_nil (ite _ _ _)]
      exact .refuse cause (.ok _)

theorem answers_aggregateProjections (list : List Aggregate) :
    Answers (aggregateProjections t list) (list.flatMap (·.defects t)) := by
  induction list with
  | nil => exact .ok []
  | cons a rest ih =>
      rw [List.flatMap_cons]
      exact (answers_aggregateProjection a).bind fun _ _ => ih.bind_pure _

theorem answers_resolveJoin :
    Answers (q.resolveJoin s) (q.join.toList.flatMap (·.tableDefects s q.table)) := by
  unfold resolveJoin
  cases q.join with
  | none => exact .ok none
  | some join =>
      rw [Option.toList_some, List.flatMap_singleton, Join.tableDefects, ← ite_not]
      exact .refuse Iff.rfl ((s.answers_resolve join.secondaryTable).bind_pure _)

theorem answers_ownProjections : Answers (q.ownProjections t) (t.missing q.columns) := by
  unfold ownProjections
  cases listed : q.columns with
  | nil => exact .ok _
  | cons name rest => exact answers_columnProjections (name :: rest)

theorem answers_joinedProjections (joined : Option (Join × Table)) :
    Answers (joinedProjections joined)
      (joined.toList.flatMap fun (join, second) => second.missing join.columns) := by
  cases joined with
  | none => exact .ok []
  | some side =>
      obtain ⟨join, second⟩ := side
      rw [Option.toList_some, List.flatMap_singleton]
      exact answers_columnProjections join.columns

theorem answers_projections (joined : Option (Join × Table)) :
    Answers (q.projections t joined) (q.shownDefects t joined) := by
  rw [projections_eq, shownDefects, List.append_assoc]
  refine answers_ownProjections.bind fun own _ => ?_
  refine (answers_joinedProjections joined).bind fun others _ => ?_
  exact (answers_aggregateProjections q.aggregates).bind_pure _

theorem answers_joinedTable (joined : Option (Join × Table)) :
    Answers (joinedTable t joined)
      (joined.toList.flatMap fun (join, second) => join.defects t second) := by
  cases joined with
  | none => exact .ok none
  | some side =>
      obtain ⟨join, second⟩ := side
      rw [Option.toList_some, List.flatMap_singleton]
      dsimp only [joinedTable, Join.defects]
      rw [List.append_assoc]
      refine (t.answers_requireColumn join.primaryColumn).bind fun _ _ => ?_
      refine (second.answers_requireColumn join.secondaryColumn).bind fun _ _ => ?_
      exact (Filter.answers_compile join.condition).bind_pure _

theorem answers_orderTarget : Answers (q.orderTarget t) (q.orderDefects t) := by
  unfold orderTarget orderDefects
  cases q.order with
  | none => exact .ok none
  | some name =>
      have labelled : (q.aggregates.any fun a => a.label == name) = true ↔
          ∃ a ∈ q.aggregates, a.label = name := by simp
      dsimp only
      by_cases column : t.hasColumn name = true
      · rw [if_pos column, if_pos (.inl column)]
        exact .ok _
      · rw [if_neg column]
        by_cases found : ∃ a ∈ q.aggregates, a.label = name
        · rw [if_pos (labelled.mpr found), if_pos (.inr found)]
          exact .ok _
        · rw [if_neg (labelled.not.mpr found), if_neg (not_or_intro column found)]
          exact .error _ _

theorem joined?_of_resolveJoin {joined : Option (Join × Table)}
    (resolved : q.resolveJoin s = .ok joined) : q.joined? s = joined := by
  unfold joined?
  rcases resolveJoin_cases resolved with ⟨alone, rfl⟩ | ⟨join, second, asked, found, rfl⟩
  · rw [alone]
    rfl
  · simp [asked, Snapshot.resolve_eq_ok_iff.mp found]

/-- A query is checked up to its first defect. -/
theorem answers_plan (q : Query) (s : Snapshot) : Answers (q.plan s) (q.defects s) := by
  unfold plan defects
  rw [List.append_assoc]
  refine (s.answers_resolve q.table).bind fun t found => ?_
  refine answers_resolveJoin.bind fun joined resolved => ?_
  rw [Snapshot.resolve_eq_ok_iff.mp found, joined?_of_resolveJoin resolved, Option.toList_some,
    List.flatMap_singleton]
  unfold partDefects
  simp only [List.append_assoc]
  refine (answers_projections joined).bind fun shown _ => ?_
  refine (Filter.answers_compile q.filter).bind fun condition _ => ?_
  refine (answers_joinedTable joined).bind fun side _ => ?_
  refine (answers_columnProjections q.groupBy).bind fun _ _ => ?_
  exact answers_orderTarget.bind_pure _

/-- Exactly the valid queries are written as statements, and any other is refused with its first
defect. -/
theorem build_accepts_valid (q : Query) (s : Snapshot) :
    ((∃ st, q.build s = .ok st) ↔ q.Valid s) ∧
      ∀ e, q.build s = .error e ↔ (q.defects s).head? = some e := by
  have answers : Answers (q.build s) (q.defects s) := (answers_plan q s).bind_pure Select.statement
  refine ⟨?_, fun e => answers.eq_error_iff⟩
  rw [answers.exists_eq_ok_iff, valid_iff_defects_eq_nil]

end Query

end TableAccess
