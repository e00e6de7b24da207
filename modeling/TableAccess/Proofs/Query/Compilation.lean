import TableAccess.Proofs.Filter.Key
import TableAccess.Proofs.Predicate.Compilation
import TableAccess.Query.Plan

/-!
# What an accepted query consists of

The compiler of a query is a chain of checks, the last of which puts its parts together. Here is
told what is known of these parts once the chain has succeeded.
-/

namespace TableAccess

namespace Query

variable {q : Query} {s : Snapshot} {t : Table} {joined : Option (Join × Table)} {sel : Select}

/-! ## Checks -/

theorem columnProjections_eq {list : List String} {shown : List Projection}
    (checked : columnProjections t list = .ok shown) :
    shown = list.map (.column t.name) ∧ ∀ name ∈ list, t.hasColumn name = true := by
  induction list generalizing shown with
  | nil =>
      cases checked
      exact ⟨rfl, List.forall_mem_nil _⟩
  | cons name rest ih =>
      obtain ⟨c, found, more⟩ := bind_eq_ok_iff.mp checked
      obtain ⟨others, later, whole⟩ := bind_eq_ok_iff.mp more
      cases whole
      obtain ⟨rfl, known⟩ := ih later
      exact ⟨rfl, List.forall_mem_cons.mpr ⟨Table.hasColumn_of_requireColumn found, known⟩⟩

/-- Every aggregate is shown under its label, of a column that the table has. -/
theorem forall₂_of_aggregateProjections {list : List Aggregate} {shown : List Projection}
    (checked : aggregateProjections t list = .ok shown) :
    List.Forall₂ (fun a p => t.hasColumn a.column = true ∧
      ∃ function, p = .aggregate function t.name a.column a.label) list shown := by
  induction list generalizing shown with
  | nil =>
      cases checked
      exact .nil
  | cons a rest ih =>
      obtain ⟨p, first, more⟩ := bind_eq_ok_iff.mp checked
      obtain ⟨others, later, whole⟩ := bind_eq_ok_iff.mp more
      cases whole
      refine .cons ?_ (ih later)
      unfold aggregateProjection at first
      cases read : AggregateFunction.ofName? a.function with
      | none =>
          rw [read] at first
          cases first
      | some function =>
          rw [read] at first
          obtain ⟨c, found, rest⟩ := bind_eq_ok_iff.mp first
          obtain ⟨_, rest⟩ := refuse_eq_ok_iff.mp rest
          cases rest
          exact ⟨Table.hasColumn_of_requireColumn found, function, rfl⟩

/-- The columns of the queried table that are shown. -/
def ownProjections (q : Query) (t : Table) : Except Error (List Projection) :=
  if q.columns.isEmpty then pure (t.columns.map fun c => .column t.name c.name)
  else columnProjections t q.columns

/-- The columns of the joined table that are shown. -/
def joinedProjections : Option (Join × Table) → Except Error (List Projection)
  | some (join, second) => columnProjections second join.columns
  | none => pure []

theorem projections_eq (q : Query) (t : Table) (joined : Option (Join × Table)) :
    q.projections t joined =
      (do
        let own ← q.ownProjections t
        let others ← joinedProjections joined
        let aggregates ← aggregateProjections t q.aggregates
        pure (own ++ others ++ aggregates)) := by
  unfold projections ownProjections
  cases q.columns.isEmpty with
  | true => cases joined <;> rfl
  | false => cases joined <;> rfl

theorem resolveJoin_cases (resolved : q.resolveJoin s = .ok joined) :
    q.join = none ∧ joined = none ∨ ∃ join second, q.join = some join ∧
      s.resolve join.secondaryTable = .ok second ∧ joined = some (join, second) := by
  unfold resolveJoin at resolved
  cases asked : q.join with
  | none =>
      rw [asked] at resolved
      cases resolved
      exact .inl ⟨rfl, rfl⟩
  | some join =>
      rw [asked] at resolved
      obtain ⟨_, rest⟩ := refuse_eq_ok_iff.mp resolved
      obtain ⟨second, found, whole⟩ := bind_eq_ok_iff.mp rest
      cases whole
      exact .inr ⟨join, second, rfl, found, rfl⟩

/-- A query is ordered by a column of its table or by the label of one of its aggregates. -/
theorem orderTarget_cases {target : OrderTarget} {direction : Direction}
    (checked : q.orderTarget t = .ok (some (target, direction))) :
    (∃ field, target = .column field ∧ t.hasColumn field = true) ∨
      ∃ a ∈ q.aggregates, target = .aggregate a.label := by
  unfold orderTarget at checked
  cases asked : q.order with
  | none =>
      rw [asked] at checked
      cases checked
  | some name =>
      rw [asked] at checked
      dsimp only at checked
      split at checked
      · rename_i column
        cases checked
        exact .inl ⟨name, rfl, column⟩
      · split at checked
        · rename_i labelled
          cases checked
          obtain ⟨a, member, same⟩ := List.any_eq_true.mp labelled
          exact .inr ⟨a, member, congrArg OrderTarget.aggregate (eq_of_beq same).symm⟩
        · cases checked

/-! ## The whole chain -/

/-- A query was found to be a checked one, in a table and possibly a joined one. -/
structure Planned (q : Query) (s : Snapshot) (t : Table) (joined : Option (Join × Table))
    (sel : Select) : Prop where
  found : s.resolve q.table = .ok t
  resolved : q.resolveJoin s = .ok joined
  projections : q.projections t joined = .ok sel.projections
  condition : t.compile q.filter = .ok sel.condition
  join : joinedTable t joined = .ok sel.join
  grouping : ∀ name ∈ q.groupBy, t.hasColumn name = true
  order : q.orderTarget t = .ok sel.order
  table : sel.table = t.name
  distinct : sel.distinct = q.distinct
  groupBy : sel.groupBy = q.groupBy
  limit : sel.limit = q.limit
  offset : sel.offset = q.offset

theorem planned_of_plan (accepted : q.plan s = .ok sel) : ∃ t joined, q.Planned s t joined sel := by
  obtain ⟨t, found, rest⟩ := bind_eq_ok_iff.mp accepted
  obtain ⟨joined, resolved, rest⟩ := bind_eq_ok_iff.mp rest
  obtain ⟨shown, projections, rest⟩ := bind_eq_ok_iff.mp rest
  obtain ⟨predicate, condition, rest⟩ := bind_eq_ok_iff.mp rest
  obtain ⟨side, join, rest⟩ := bind_eq_ok_iff.mp rest
  obtain ⟨_, grouped, rest⟩ := bind_eq_ok_iff.mp rest
  obtain ⟨target, order, rest⟩ := bind_eq_ok_iff.mp rest
  cases rest
  exact ⟨t, joined,
    { found, resolved, projections, condition, join, order
      grouping := (columnProjections_eq grouped).2
      table := rfl
      distinct := rfl
      groupBy := rfl
      limit := rfl
      offset := rfl }⟩

inductive Showing (q : Query) (s : Snapshot) (t : Table) : Projection → Prop where
  | queried {field : String} (known : t.hasColumn field = true) :
      Showing q s t (.column t.name field)
  | joined {join : Join} {second : Table} {field : String} (asked : q.join = some join)
      (found : s.resolve join.secondaryTable = .ok second)
      (known : second.hasColumn field = true) : Showing q s t (.column second.name field)
  | aggregate {a : Aggregate} (function : AggregateFunction) (asked : a ∈ q.aggregates)
      (known : t.hasColumn a.column = true) :
      Showing q s t (.aggregate function t.name a.column a.label)

/-- The columns of the queried table that are shown are all of its columns, or named ones. -/
theorem ownProjections_eq_ok {own : List Projection} (checked : q.ownProjections t = .ok own) :
    (∀ p ∈ own, q.Showing s t p) ∧ (t.columns ≠ [] → own ≠ []) := by
  unfold ownProjections at checked
  split at checked
  · cases checked
    refine ⟨List.forall_mem_map.mpr fun c listed => ?_, fun columns => by simpa using columns⟩
    exact .queried (Table.hasColumn_iff.mpr ⟨c, listed, rfl⟩)
  · rename_i named
    obtain ⟨rfl, known⟩ := columnProjections_eq checked
    refine ⟨List.forall_mem_map.mpr fun name listed => .queried (known name listed), fun _ => ?_⟩
    simpa using named

namespace Planned

variable (planned : q.Planned s t joined sel)

include planned

/-- The joined side of an accepted query. -/
theorem sides : q.join = none ∧ sel.join = none ∨ ∃ join second condition,
    q.join = some join ∧ s.resolve join.secondaryTable = .ok second ∧
    t.hasColumn join.primaryColumn = true ∧ second.hasColumn join.secondaryColumn = true ∧
    second.compile join.condition = .ok condition ∧ sel.join =
      some ⟨second.name, join.outer, join.primaryColumn, join.secondaryColumn, condition⟩ := by
  have checked := planned.join
  rcases resolveJoin_cases planned.resolved with ⟨alone, rfl⟩ | ⟨join, second, asked, found, rfl⟩
  · exact .inl ⟨alone, (Except.ok.inj checked).symm⟩
  · obtain ⟨_, primary, rest⟩ := bind_eq_ok_iff.mp checked
    obtain ⟨_, secondary, rest⟩ := bind_eq_ok_iff.mp rest
    obtain ⟨condition, compiled, rest⟩ := bind_eq_ok_iff.mp rest
    exact .inr ⟨join, second, condition, asked, found, Table.hasColumn_of_requireColumn primary,
      Table.hasColumn_of_requireColumn secondary, compiled, (Except.ok.inj rest).symm⟩

/-- What an accepted query shows, which is not nothing if its table has columns. Every aggregate
is among it. -/
theorem shown : (∀ p ∈ sel.projections, q.Showing s t p) ∧
    (t.columns ≠ [] → sel.projections ≠ []) ∧
    ∀ a ∈ q.aggregates, ∃ function,
      .aggregate function t.name a.column a.label ∈ sel.projections := by
  have checked := planned.projections
  rw [projections_eq] at checked
  obtain ⟨own, first, rest⟩ := bind_eq_ok_iff.mp checked
  obtain ⟨others, second, rest⟩ := bind_eq_ok_iff.mp rest
  obtain ⟨aggregates, third, rest⟩ := bind_eq_ok_iff.mp rest
  rw [← Except.ok.inj rest]
  obtain ⟨ownColumns, nonempty⟩ := ownProjections_eq_ok (s := s) first
  have each := forall₂_of_aggregateProjections third
  have otherColumns : ∀ p ∈ others, q.Showing s t p := by
    rcases resolveJoin_cases planned.resolved with ⟨_, rfl⟩ | ⟨join, table, asked, found, rfl⟩
    · cases second
      exact List.forall_mem_nil _
    · obtain ⟨rfl, known⟩ := columnProjections_eq second
      exact List.forall_mem_map.mpr fun name listed => .joined asked found (known name listed)
  refine ⟨?_, fun columns => by simp [nonempty columns], fun a asked => ?_⟩
  · simp only [List.forall_mem_append]
    refine ⟨⟨ownColumns, otherColumns⟩, fun p listed => ?_⟩
    obtain ⟨a, asked, known, function, rfl⟩ := exists_of_forall₂ each.flip listed
    exact .aggregate function asked known
  · obtain ⟨p, listed, _, function, rfl⟩ := exists_of_forall₂ each asked
    exact ⟨function, List.mem_append_right _ listed⟩

end Planned

end Query

end TableAccess
