import TableAccess.Proofs.Filter.Parallel
import TableAccess.Proofs.Query.Names
import TableAccess.Proofs.Query.Placeholders

/-!
# Parallel queries

Two queries that differ only in the values of their filters, that of a join included, are
refused alike or have the same text, with related values in the same places.
-/

namespace TableAccess

open Sql (Fragment)

variable {related : Value → Value → Prop}

/-- Whether a key of a filter on a named table asks whether its column is null. -/
def Snapshot.AsksNull (s : Snapshot) (name key : String) : Prop :=
  ∃ t, s.resolve name = .ok t ∧ t.AsksNull key

theorem Snapshot.asksNull_of_resolve {s : Snapshot} {name : String} {t : Table}
    (found : s.resolve name = .ok t) (key : String) (asks : t.AsksNull key) :
    s.AsksNull name key :=
  ⟨t, found, asks⟩

/-- Joins that differ in the values of their conditions only. -/
structure Join.Parallel (s : Snapshot) (related : Value → Value → Prop) (join other : Join) :
    Prop where
  rest : other = { join with condition := other.condition }
  condition :
    Filter.Parallel (s.AsksNull join.secondaryTable) related join.condition other.condition

/-- Queries that differ in the values of their filters only. -/
structure Query.Parallel (s : Snapshot) (related : Value → Value → Prop) (q other : Query) :
    Prop where
  rest : other = { q with filter := other.filter, join := other.join }
  filter : Filter.Parallel (s.AsksNull q.table) related q.filter other.filter
  join : Option.Rel (Join.Parallel s related) q.join other.join

/-! ## Checked queries -/

/-- Joined sides that differ in the values of their conditions only. -/
structure JoinedTable.Parallel (related : Value → Value → Prop) (j other : JoinedTable) :
    Prop where
  rest : other = { j with condition := other.condition }
  condition : Predicate.Parallel related j.condition other.condition

/-- Checked queries that differ in the values of their conditions only. -/
structure Select.Parallel (related : Value → Value → Prop) (s other : Select) : Prop where
  rest : other = { s with join := other.join, condition := other.condition }
  join : Option.Rel (JoinedTable.Parallel related) s.join other.join
  condition : Predicate.Parallel related s.condition other.condition

/-- Clauses that introduce parallel predicates are parallel. -/
theorem Predicate.Parallel.clause {p q : Predicate} (parallel : Predicate.Parallel related p q)
    (before : String) :
    Sql.Parallel related (if p.isUnrestricted then [] else .verbatim before :: p.fragments)
      (if q.isUnrestricted then [] else .verbatim before :: q.fragments) := by
  rw [parallel.isUnrestricted_eq]
  split
  · exact .nil
  · exact .cons (.verbatim before) parallel.fragments

theorem JoinedTable.Parallel.fragments {j other : JoinedTable} (primary : String)
    (parallel : j.Parallel related other) :
    Sql.Parallel related (j.fragments primary) (other.fragments primary) := by
  obtain ⟨rest, condition⟩ := parallel
  rw [rest]
  have fixed : Sql.Parallel related
      [.verbatim (if j.outer then " LEFT OUTER JOIN " else " INNER JOIN "), .name j.table,
        .verbatim " ON ", .column primary j.primaryColumn, .verbatim " = ",
        .column j.table j.secondaryColumn]
      [.verbatim (if j.outer then " LEFT OUTER JOIN " else " INNER JOIN "), .name j.table,
        .verbatim " ON ", .column primary j.primaryColumn, .verbatim " = ",
        .column j.table j.secondaryColumn] :=
    .cons (.verbatim _) (.cons (.name _) (.cons (.verbatim _) (.cons (.column _ _)
      (.cons (.verbatim _) (.cons (.column _ _) .nil)))))
  exact fixed.append (condition.clause " AND ")

namespace Select

theorem Parallel.sources {s other : Select} (parallel : s.Parallel related other) :
    Sql.Parallel related s.sourceFragments other.sourceFragments := by
  obtain ⟨rest, join, _⟩ := parallel
  rw [rest]
  unfold sourceFragments
  refine .cons (.verbatim " FROM ") (.cons (.name s.table) ?_)
  dsimp only
  generalize s.join = first at join ⊢
  generalize other.join = second at join ⊢
  cases join with
  | none => exact .nil
  | some side => exact side.fragments s.table

/-- Parallel checked queries are written in parallel. -/
theorem Parallel.fragments {s other : Select} (parallel : s.Parallel related other) :
    Sql.Parallel related s.fragments other.fragments := by
  have sources := parallel.sources
  have conditions := parallel.condition.clause " WHERE "
  obtain ⟨rest, _, _⟩ := parallel
  have shown : other.shownFragments = s.shownFragments := by rw [rest]; rfl
  have grouped : other.groupFragments = s.groupFragments := by rw [rest]; rfl
  have ordered : other.orderFragments = s.orderFragments := by rw [rest]; rfl
  have paged : other.pageFragments = s.pageFragments := by rw [rest]; rfl
  unfold Select.fragments
  rw [shown, grouped, ordered, paged]
  exact ((((Sql.Parallel.quiet s.quiet_shownFragments).append sources).append conditions).append
    (.quiet s.quiet_groupFragments)).append (.quiet s.quiet_orderFragments)
      |>.append (.quiet s.quiet_pageFragments)

theorem Parallel.statement {s other : Select} (parallel : s.Parallel related other) :
    s.statement.Parallel related other.statement := by
  have table : other.table = s.table := by rw [parallel.rest]
  unfold Select.statement
  rw [table]
  exact Statement.parallel_ofFragments s.table parallel.fragments

end Select

/-! ## Checks -/

namespace Query

variable {s : Snapshot} {q other : Query} {t : Table}

/-- Joins with their second tables that differ in the values of their conditions only. -/
def SideParallel (s : Snapshot) (related : Value → Value → Prop) (side other : Join × Table) :
    Prop :=
  side.1.Parallel s related other.1 ∧ side.2 = other.2 ∧
    s.resolve side.1.secondaryTable = .ok side.2

theorem Parallel.resolveJoin (parallel : q.Parallel s related other) :
    Agree (Option.Rel (SideParallel s related)) (q.resolveJoin s) (other.resolveJoin s) := by
  obtain ⟨rest, _, join⟩ := parallel
  have table : other.table = q.table := by rw [rest]
  unfold Query.resolveJoin
  rw [table]
  generalize q.join = asked at join ⊢
  generalize other.join = alternative at join ⊢
  cases join with
  | none => exact .ok .none
  | @some join second side =>
      obtain ⟨same, condition⟩ := side
      have primary : second.primaryTable = join.primaryTable := by rw [same]
      have secondary : second.secondaryTable = join.secondaryTable := by rw [same]
      have refusal : joinFromElsewhere second q.table = joinFromElsewhere join q.table := by
        rw [joinFromElsewhere, primary, joinFromElsewhere]
      dsimp only
      rw [primary, secondary, refusal]
      refine .refuse Iff.rfl fun _ => .bind_same fun t found => ?_
      exact .ok (.some ⟨⟨same, condition⟩, rfl, found⟩)

theorem Parallel.projections {joined others : Option (Join × Table)}
    (parallel : q.Parallel s related other)
    (sides : Option.Rel (SideParallel s related) joined others) :
    other.projections t others = q.projections t joined := by
  have own : other.ownProjections t = q.ownProjections t := by
    rw [parallel.rest]
    rfl
  have shown : joinedProjections others = joinedProjections joined := by
    cases sides with
    | none => rfl
    | @some side another same =>
        obtain ⟨⟨rest, _⟩, table, _⟩ := same
        obtain ⟨join, second⟩ := side
        obtain ⟨otherJoin, otherSecond⟩ := another
        dsimp only at rest table
        rw [joinedProjections, joinedProjections, rest, table]
  have aggregates : other.aggregates = q.aggregates := by rw [parallel.rest]
  rw [projections_eq, projections_eq, own, shown, aggregates]

theorem joinedTable_agree {joined others : Option (Join × Table)}
    (sides : Option.Rel (SideParallel s related) joined others) :
    Agree (Option.Rel (JoinedTable.Parallel related)) (joinedTable t joined)
      (joinedTable t others) := by
  cases sides with
  | none => exact .ok .none
  | @some side another same =>
      obtain ⟨join, second⟩ := side
      obtain ⟨otherJoin, otherSecond⟩ := another
      obtain ⟨⟨rest, condition⟩, table, found⟩ := same
      dsimp only at rest condition table found
      subst table
      have primary : otherJoin.primaryColumn = join.primaryColumn := by rw [rest]
      have secondary : otherJoin.secondaryColumn = join.secondaryColumn := by rw [rest]
      have outer : otherJoin.outer = join.outer := by rw [rest]
      unfold joinedTable
      dsimp only
      rw [primary, secondary, outer]
      refine .bind_same fun _ _ => .bind_same fun _ _ => ?_
      refine (condition.compile (Snapshot.asksNull_of_resolve found)).bind_pure fun p p' same => ?_
      exact .some ⟨rfl, same⟩

/-- Parallel queries are refused alike or stay parallel when they are checked. -/
theorem Parallel.plan (parallel : q.Parallel s related other) :
    Agree (Select.Parallel related) (q.plan s) (other.plan s) := by
  have shown {joined others : Option (Join × Table)} (t : Table)
      (sides : Option.Rel (SideParallel s related) joined others) :
      other.projections t others = q.projections t joined := parallel.projections sides
  have sides := parallel.resolveJoin
  obtain ⟨rest, filter, _⟩ := parallel
  have table : other.table = q.table := by rw [rest]
  have groupBy : other.groupBy = q.groupBy := by rw [rest]
  have order (t : Table) : other.orderTarget t = q.orderTarget t := by rw [rest]; rfl
  unfold Query.plan
  rw [table]
  refine .bind_same fun t found => sides.bind fun joined others same _ _ => ?_
  rw [shown t same]
  refine .bind_same fun projections _ => ?_
  refine (filter.compile (Snapshot.asksNull_of_resolve found)).bind fun p p' condition _ _ => ?_
  refine (joinedTable_agree same).bind fun side side' join _ _ => ?_
  rw [groupBy, order]
  refine .bind_same fun _ _ => .bind_same fun ordered _ => .ok ?_
  have distinct : other.distinct = q.distinct := by rw [rest]
  have limit : other.limit = q.limit := by rw [rest]
  have offset : other.offset = q.offset := by rw [rest]
  rw [distinct, limit, offset]
  exact ⟨rfl, join, condition⟩

/-- Parallel queries are refused alike or have parallel statements. -/
theorem Parallel.build (parallel : q.Parallel s related other) :
    Agree (Statement.Parallel related) (q.build s) (other.build s) :=
  parallel.plan.bind_pure fun _ _ same => same.statement

/-! ## Values -/

/-- The values of a query: those of its filter and of the condition of its join. -/
def values (q : Query) : List Value :=
  (match q.join with
    | some join => join.condition.values
    | none => []) ++ q.filter.values

/-- Parallel queries are so for every relation that the given one implies of their values. -/
theorem Parallel.weaken {weaker : Value → Value → Prop} (parallel : q.Parallel s related other)
    (weaken : ∀ v ∈ q.values, ∀ w ∈ other.values, related v w → weaker v w) :
    q.Parallel s weaker other := by
  obtain ⟨rest, filter, join⟩ := parallel
  refine ⟨rest, filter.weaken fun v here w there => ?_, ?_⟩
  · exact weaken v (List.mem_append_right _ here) w (List.mem_append_right _ there)
  · unfold values at weaken
    generalize q.join = asked at join weaken ⊢
    generalize other.join = alternative at join weaken ⊢
    cases join with
    | none => exact .none
    | some side =>
        refine .some ⟨side.rest, side.condition.weaken fun v here w there => ?_⟩
        exact weaken v (List.mem_append_left _ here) w (List.mem_append_left _ there)

end Query

end TableAccess
