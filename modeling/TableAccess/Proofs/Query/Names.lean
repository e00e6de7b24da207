import TableAccess.Proofs.Predicate.Names
import TableAccess.Proofs.Query.Compilation
import TableAccess.Query.Written

/-!
# Names in queries

Every name in the statement of an accepted query was found before: it belongs to the queried
table or to the joined one, or it is the label of an aggregate that was asked for.
-/

namespace TableAccess

open Sql (Clause Fragment IsWord Orderly Worded)

variable {names : String → Prop}

/-! ## Clauses -/

/-- A shown column with known names. -/
inductive Projection.Within (names : String → Prop) : Projection → Prop where
  | column {table field : String} (known : names table) (knownField : names field) :
      Within names (column table field)
  | aggregate (function : AggregateFunction) {table field label : String} (known : names table)
      (knownField : names field) (knownLabel : names label) :
      Within names (aggregate function table field label)

theorem AggregateFunction.worded_symbol (function : AggregateFunction) :
    Worded function.symbol := by
  cases function with
  | count => exact .of_known ["COUNT"]
  | sum => exact .of_known ["SUM"]
  | avg => exact .of_known ["AVG"]
  | min => exact .of_known ["MIN"]
  | max => exact .of_known ["MAX"]

theorem Projection.Within.orderly {p : Projection} (within : p.Within names) :
    Orderly names p.fragments := by
  cases within with
  | column known knownField => exact .column known knownField Sql.apart_nil .nil
  | aggregate function known knownField knownLabel =>
      have opening : Worded "(" := .of_known ["("]
      have naming : Worded ") AS " := .of_known [")", " ", "AS", " "]
      exact .verbatim (function.worded_symbol.append opening)
        (.columnThen known knownField naming (.name knownLabel Sql.apart_nil .nil))

structure JoinedTable.Within (names : String → Prop) (j : JoinedTable) : Prop where
  table : names j.table
  primaryColumn : names j.primaryColumn
  secondaryColumn : names j.secondaryColumn
  condition : Orderly names j.condition.fragments

/-- A clause that introduces a predicate, if this restricts anything. -/
theorem Predicate.clause {before : String} {p : Predicate} (worded : Worded before)
    (orderly : Orderly names p.fragments) (filled : before ≠ "" := by decide) :
    Clause names (if p.isUnrestricted then [] else .verbatim before :: p.fragments) := by
  split
  · exact .nil
  · exact .verbatim worded orderly filled

theorem JoinedTable.Within.clause {j : JoinedTable} {primary : String} (within : j.Within names)
    (known : names primary) : Clause names (j.fragments primary) := by
  have conjunction : Worded " AND " := .of_known [" ", "AND", " "]
  have restriction := Predicate.clause conjunction within.condition
  have secondary := Orderly.column within.table within.secondaryColumn restriction.apart
    restriction.orderly
  have equals : Worded " = " := .of_known [" ", "=", " "]
  have equality := Orderly.columnThen known within.primaryColumn equals secondary
  have on : Worded " ON " := .of_known [" ", "ON", " "]
  have joined := Orderly.nameThen within.table on equality
  unfold fragments
  cases j.outer with
  | true =>
      have outer : Worded " LEFT OUTER JOIN " :=
        .of_known [" ", "LEFT", " ", "OUTER", " ", "JOIN", " "]
      exact .verbatim outer joined
  | false =>
      have inner : Worded " INNER JOIN " := .of_known [" ", "INNER", " ", "JOIN", " "]
      exact .verbatim inner joined

theorem Direction.worded_symbol (direction : Direction) : Worded (" " ++ direction.symbol) := by
  cases direction with
  | ascending => exact .of_known [" ", "ASC"]
  | descending => exact .of_known [" ", "DESC"]

def OrderTarget.name : OrderTarget → String
  | column field => field
  | aggregate label => label

namespace Select

structure Within (names : String → Prop) (s : Select) : Prop where
  table : names s.table
  projections : ∀ p ∈ s.projections, p.Within names
  join : ∀ j, s.join = some j → j.Within names
  condition : Orderly names s.condition.fragments
  groupBy : ∀ field ∈ s.groupBy, names field
  order : ∀ target direction, s.order = some (target, direction) → names target.name

namespace Within

variable {s : Select}

theorem shown (within : s.Within names) : Orderly names s.shownFragments := by
  have comma : Worded ", " := .of_known [",", " "]
  have columns := Orderly.separated comma
    (List.forall_mem_map.mpr fun p found => (within.projections p found).orderly)
  unfold shownFragments
  cases s.distinct with
  | true =>
      have distinct : Worded "SELECT DISTINCT " := .of_known ["SELECT", " ", "DISTINCT", " "]
      exact .verbatim distinct columns
  | false =>
      have plain : Worded "SELECT " := .of_known ["SELECT", " "]
      exact .verbatim plain columns

theorem sources (within : s.Within names) : Clause names s.sourceFragments := by
  have source : Worded " FROM " := .of_known [" ", "FROM", " "]
  unfold sourceFragments
  cases side : s.join with
  | none => exact .verbatim source (.name within.table Sql.apart_nil .nil)
  | some j =>
      have joined := (within.join j side).clause within.table
      exact .verbatim source (.name within.table joined.apart joined.orderly)

theorem conditions (within : s.Within names) : Clause names s.whereFragments := by
  have introduction : Worded " WHERE " := .of_known [" ", "WHERE", " "]
  exact Predicate.clause introduction within.condition

theorem grouping (within : s.Within names) : Clause names s.groupFragments := by
  unfold groupFragments
  split
  · exact .nil
  · have introduction : Worded " GROUP BY " := .of_known [" ", "GROUP", " ", "BY", " "]
    have comma : Worded ", " := .of_known [",", " "]
    have columns : ∀ part ∈ s.groupBy.map fun field => [Fragment.column s.table field],
        Orderly (α := Value) names part := by
      refine List.forall_mem_map.mpr fun field found => ?_
      exact .column within.table (within.groupBy field found) Sql.apart_nil .nil
    exact .verbatim introduction (Orderly.separated comma columns)

theorem ordering (within : s.Within names) : Clause names s.orderFragments := by
  unfold orderFragments
  cases order : s.order with
  | none => exact .nil
  | some asked =>
      obtain ⟨target, direction⟩ := asked
      have known := within.order target direction order
      have introduction : Worded " ORDER BY " := .of_known [" ", "ORDER", " ", "BY", " "]
      have way := direction.worded_symbol
      cases target with
      | column field =>
          exact .verbatim introduction (.columnThen within.table known way .nil (by simp))
      | aggregate label => exact .verbatim introduction (.nameThen known way .nil (by simp))

end Within

/-- Limit and offset have no names. -/
theorem paging (s : Select) : Clause names s.pageFragments := by
  have limit : Worded (" LIMIT " ++ toString s.limit) := .blank (.limit s.limit)
  have noLimit : Worded " LIMIT -1" := .blank .noLimit
  have offset : Worded (" OFFSET " ++ toString s.offset) := .blank (.offset s.offset)
  unfold pageFragments
  refine Clause.append ?limited ?skipped
  case limited =>
    split
    · exact .verbatim limit .nil (by simp)
    · split
      · exact .verbatim noLimit .nil
      · exact .nil
  case skipped =>
    split
    · exact .verbatim offset .nil (by simp)
    · exact .nil

theorem Within.orderly {s : Select} (within : s.Within names) : Orderly names s.fragments := by
  have clauses := (((within.sources.append within.conditions).append within.grouping).append
    within.ordering).append s.paging
  have whole := within.shown.append clauses.orderly clauses.apart
  unfold fragments
  simpa only [List.append_assoc] using whole

end Select

/-! ## Accepted queries -/

namespace Query

/-- The names that a query may mention: those of the queried table and of the joined one, and
the labels of the aggregates that are asked for. -/
inductive Names (q : Query) (s : Snapshot) (name : String) : Prop where
  | queried {t : Table} (found : s.resolve q.table = .ok t) (known : t.Names name) : Names q s name
  | joined {join : Join} {t : Table} (asked : q.join = some join)
      (found : s.resolve join.secondaryTable = .ok t) (known : t.Names name) : Names q s name
  | label {a : Aggregate} (asked : a ∈ q.aggregates) (same : a.label = name) : Names q s name

variable {q : Query} {s : Snapshot} {t : Table}

theorem Showing.within (found : s.resolve q.table = .ok t) {p : Projection}
    (shown : q.Showing s t p) : p.Within (q.Names s) := by
  have own : q.Names s t.name := .queried found (.inl rfl)
  cases shown with
  | queried known => exact .column own (.queried found (Table.names_of_hasColumn known))
  | joined asked there known =>
      exact .column (.joined asked there (.inl rfl))
        (.joined asked there (Table.names_of_hasColumn known))
  | aggregate function asked known =>
      exact .aggregate function own (.queried found (Table.names_of_hasColumn known))
        (.label asked rfl)

theorem Planned.join_within {joined : Option (Join × Table)} {sel : Select}
    (planned : q.Planned s t joined sel) : ∀ j, sel.join = some j → j.Within (q.Names s) := by
  rcases planned.sides with ⟨_, alone⟩ | ⟨join, second, condition, asked, there, primary, secondary,
    compiled, side⟩
  · rw [alone]
    exact nofun
  · rw [side]
    rintro _ ⟨⟩
    have joined (name : String) (known : second.Names name) : q.Names s name :=
      .joined asked there known
    exact ⟨joined _ (.inl rfl), .queried planned.found (Table.names_of_hasColumn primary),
      joined _ (Table.names_of_hasColumn secondary), Predicate.orderly_of_compile joined compiled⟩

theorem orderTarget_known {target : OrderTarget} {direction : Direction}
    (found : s.resolve q.table = .ok t)
    (checked : q.orderTarget t = .ok (some (target, direction))) : q.Names s target.name := by
  rcases orderTarget_cases checked with ⟨field, rfl, known⟩ | ⟨a, asked, rfl⟩
  · exact .queried found (Table.names_of_hasColumn known)
  · exact .label asked rfl

/-- Every name in an accepted query was found. -/
theorem within_of_plan {sel : Select} (accepted : q.plan s = .ok sel) :
    sel.Within (q.Names s) := by
  obtain ⟨t, joined, planned⟩ := planned_of_plan accepted
  have queried (name : String) (known : t.Names name) : q.Names s name :=
    .queried planned.found known
  exact
    { table := queried _ (.inl planned.table)
      projections := fun p listed => (planned.shown.1 p listed).within planned.found
      join := planned.join_within
      condition := Predicate.orderly_of_compile queried planned.condition
      groupBy := fun field member => queried _
        (Table.names_of_hasColumn (planned.grouping field (planned.groupBy ▸ member)))
      order := fun target direction same =>
        orderTarget_known planned.found (planned.order.trans (congrArg _ same)) }

/-- The statement of an accepted query confines its names. -/
theorem confined_of_build {st : Statement} (accepted : q.build s = .ok st) :
    Sql.Confined (q.Names s) st.sql.toList := by
  obtain ⟨sel, planned, written⟩ := bind_eq_ok_iff.mp accepted
  cases written
  exact (within_of_plan planned).orderly.confined_render

end Query

end TableAccess
