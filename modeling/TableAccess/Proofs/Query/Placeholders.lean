import TableAccess.Proofs.Predicate.Placeholders
import TableAccess.Proofs.Query.Compilation
import TableAccess.Query.Written

/-!
# Placeholders of queries

A query binds the values of the condition of its join before those of its own filter, although
the filter is checked first. No other clause of a query binds anything.
-/

namespace TableAccess

open Sql (Filled Fragment Writes Binds)

/-! ## Clauses without values -/

theorem Projection.quiet (p : Projection) : ∀ fragment ∈ p.fragments, fragment.Quiet := by
  cases p with
  | column table field => simp [fragments, Fragment.Quiet]
  | aggregate function table field label =>
      cases function <;> simp [fragments, Fragment.Quiet, AggregateFunction.symbol]

namespace Select

def joinValues (s : Select) : List Value :=
  match s.join with
  | some joined => joined.condition.values
  | none => []

theorem quiet_shownFragments (s : Select) : ∀ fragment ∈ s.shownFragments, fragment.Quiet := by
  unfold shownFragments
  refine List.forall_mem_cons.mpr ⟨?first, Fragment.quiet_separated ?between ?each⟩
  case first => cases s.distinct <;> exact ⟨by decide, by decide⟩
  case between => exact ⟨by decide, by decide⟩
  case each =>
    intro part found
    obtain ⟨shown, _, rfl⟩ := List.mem_map.mp found
    exact shown.quiet

theorem quiet_groupFragments (s : Select) : ∀ fragment ∈ s.groupFragments, fragment.Quiet := by
  unfold groupFragments
  split
  · exact fun _ found => nomatch found
  · refine List.forall_mem_cons.mpr ⟨⟨by decide, by decide⟩, ?_⟩
    refine Fragment.quiet_separated ⟨by decide, by decide⟩ fun part found => ?_
    obtain ⟨field, _, rfl⟩ := List.mem_map.mp found
    simp [Fragment.Quiet]

theorem quiet_orderFragments (s : Select) : ∀ fragment ∈ s.orderFragments, fragment.Quiet := by
  unfold orderFragments
  cases s.order with
  | none => exact fun _ found => nomatch found
  | some order =>
      obtain ⟨target, direction⟩ := order
      cases target <;> cases direction <;> simp [Fragment.Quiet, Direction.symbol]

theorem quiet_pageFragments (s : Select) : ∀ fragment ∈ s.pageFragments, fragment.Quiet := by
  have limit : (Fragment.verbatim (" LIMIT " ++ toString s.limit) : Fragment Value).Quiet :=
    Fragment.quiet_number ⟨by decide, by decide⟩ s.limit
  have offset : (Fragment.verbatim (" OFFSET " ++ toString s.offset) : Fragment Value).Quiet :=
    Fragment.quiet_number ⟨by decide, by decide⟩ s.offset
  have noLimit : (Fragment.verbatim " LIMIT -1" : Fragment Value).Quiet :=
    ⟨by decide, by decide⟩
  unfold pageFragments
  refine List.forall_mem_append.mpr ⟨?limited, ?skipped⟩
  case limited =>
    split
    · exact List.forall_mem_singleton.mpr limit
    · split
      · exact List.forall_mem_singleton.mpr noLimit
      · exact fun _ found => nomatch found
  case skipped =>
    split
    · exact List.forall_mem_singleton.mpr offset
    · exact fun _ found => nomatch found

end Select

/-! ## Clauses with values -/

def Predicate.filledClause (before : String) (p : Predicate) : Filled Value :=
  if p.isUnrestricted then [] else Filled.text before ++ p.filled

def JoinedTable.filled (primary : String) (j : JoinedTable) : Filled Value :=
  Filled.text (if j.outer then " LEFT OUTER JOIN " else " INNER JOIN ") ++ Filled.name j.table
    ++ Filled.text " ON " ++ Filled.column primary j.primaryColumn ++ Filled.text " = "
    ++ Filled.column j.table j.secondaryColumn ++ j.condition.filledClause " AND "

/-- A clause without a restriction has no values either. -/
theorem Predicate.writes_clause {before : String}
    (introduced : Writes (id : Value → Value) [.verbatim before] [] (Filled.text before))
    (p : Predicate) :
    Writes id (if p.isUnrestricted then [] else .verbatim before :: p.fragments) p.values
      (p.filledClause before) := by
  unfold filledClause
  cases p with
  | unrestricted => exact .nil
  | const outcome => exact introduced.append (writes (.const outcome))
  | condition c => exact introduced.append (writes (.condition c))
  | all parts => exact introduced.append (writes (.all parts))
  | any parts => exact introduced.append (writes (.any parts))

theorem JoinedTable.writes (primary : String) (j : JoinedTable) :
    Writes id (j.fragments primary) j.condition.values (j.filled primary) := by
  have kind : Writes (id : Value → Value)
      [.verbatim (if j.outer then " LEFT OUTER JOIN " else " INNER JOIN ")] []
      (Filled.text (if j.outer then " LEFT OUTER JOIN " else " INNER JOIN ")) := by
    cases j.outer with
    | true => exact .verbatim " LEFT OUTER JOIN "
    | false => exact .verbatim " INNER JOIN "
  have clause := j.condition.writes_clause (.verbatim " AND ")
  have whole := kind.append ((Writes.name j.table).append ((Writes.verbatim " ON ").append
    ((Writes.column primary j.primaryColumn).append ((Writes.verbatim " = ").append
      ((Writes.column j.table j.secondaryColumn).append clause)))))
  simpa [fragments, filled] using whole

namespace Select

def quietText (clause : List (Fragment Value)) : Filled Value :=
  (clause.flatMap Fragment.text).map .inl

def filled (s : Select) : Filled Value :=
  quietText s.shownFragments ++ Filled.text " FROM " ++ Filled.name s.table
    ++ (match s.join with
      | some joined => joined.filled s.table
      | none => [])
    ++ s.condition.filledClause " WHERE "
    ++ quietText (s.groupFragments ++ s.orderFragments ++ s.pageFragments)

theorem writes (s : Select) :
    Writes id s.fragments (s.joinValues ++ s.condition.values) s.filled := by
  have shown : Writes id s.shownFragments [] (quietText s.shownFragments) :=
    .quiet s.quiet_shownFragments
  have source : Writes (id : Value → Value) [.verbatim " FROM "] [] (Filled.text " FROM ") :=
    .verbatim " FROM "
  have clause := s.condition.writes_clause (.verbatim " WHERE ")
  have after : Writes id (s.groupFragments ++ s.orderFragments ++ s.pageFragments) []
      (quietText (s.groupFragments ++ s.orderFragments ++ s.pageFragments)) :=
    .quiet (List.forall_mem_append.mpr ⟨List.forall_mem_append.mpr
      ⟨s.quiet_groupFragments, s.quiet_orderFragments⟩, s.quiet_pageFragments⟩)
  unfold fragments sourceFragments whereFragments filled joinValues
  cases s.join with
  | none =>
      have whole := shown.append (source.append ((Writes.name s.table).append
        (clause.append after)))
      simpa using whole
  | some joined =>
      have whole := shown.append (source.append ((Writes.name s.table).append
        ((joined.writes s.table).append (clause.append after))))
      simpa using whole

end Select

/-! ## Accepted queries -/

namespace Query

/-- The values of the condition of a join, which is about the second table. -/
def joinValues (s : Snapshot) : Option Join → Except Error (List Value)
  | none => pure []
  | some join => do
      let second ← s.resolve join.secondaryTable
      pure (← second.compile join.condition).values

/-- An accepted query has the predicate of its filter and binds the values of its join. -/
theorem of_plan {q : Query} {s : Snapshot} {sel : Select} (accepted : q.plan s = .ok sel) :
    ∃ t, s.resolve q.table = .ok t ∧ t.compile q.filter = .ok sel.condition ∧
      joinValues s q.join = .ok sel.joinValues := by
  obtain ⟨t, joined, planned⟩ := planned_of_plan accepted
  refine ⟨t, planned.found, planned.condition, ?_⟩
  rcases planned.sides with ⟨alone, unjoined⟩ | ⟨join, second, condition, asked, found, _, _,
    compiled, side⟩
  · rw [alone, Select.joinValues, unjoined]
    rfl
  · rw [asked, Select.joinValues, side]
    exact bind_eq_ok_iff.mpr ⟨second, found, bind_eq_ok_iff.mpr ⟨condition, compiled, rfl⟩⟩

/-- The statement of an accepted query binds the values of the condition of its join before
those of its filter. -/
theorem binds_of_build {q : Query} {s : Snapshot} {st : Statement}
    (accepted : q.build s = .ok st) :
    ∃ sel t, q.plan s = .ok sel ∧ s.resolve q.table = .ok t ∧
      t.compile q.filter = .ok sel.condition ∧ joinValues s q.join = .ok sel.joinValues ∧
      st.params = sel.joinValues ++ sel.condition.values ∧ Binds st.sql st.params sel.filled := by
  obtain ⟨sel, planned, written⟩ := bind_eq_ok_iff.mp accepted
  cases written
  obtain ⟨t, found, compiled, joined⟩ := of_plan planned
  have bound := sel.writes.bound
  rw [List.map_id] at bound
  have binds := sel.writes.binds
  rw [← bound] at binds
  exact ⟨sel, t, planned, found, compiled, joined, bound, binds⟩

end Query

end TableAccess
