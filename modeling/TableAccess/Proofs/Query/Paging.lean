import TableAccess.Proofs.Outcome
import TableAccess.Proofs.Query.Names
import TableAccess.Proofs.Sql.Wholeness

/-!
# Pages of queries

Limit and offset are asked for at the end of a statement, without names and without values that are
bound. They change nothing else of a query: not what is checked, nor what is written, nor where the
statement breaks off.
-/

namespace TableAccess

open Sql (Fragment)

def Query.paged (q : Query) (limit offset : Nat) : Query := (q.withLimit limit).withOffset offset

namespace Select

variable {sel : Select}

/-- The checked query with another limit and offset. -/
def paged (sel : Select) (limit offset : Nat) : Select := { sel with limit, offset }

/-- A page is checked like the query without one. -/
theorem plan_paged (q : Query) (s : Snapshot) (limit offset : Nat) :
    (q.paged limit offset).plan s = (q.plan s).map (paged · limit offset) := by
  unfold Query.plan
  simp only [map_bind]
  rfl

def pageText (limit offset : Nat) : String :=
  (if 0 < limit then " LIMIT " ++ toString limit else if 0 < offset then " LIMIT -1" else "")
    ++ if 0 < offset then " OFFSET " ++ toString offset else ""

def headFragments (sel : Select) : List (Fragment Value) :=
  sel.shownFragments ++ sel.sourceFragments ++ sel.whereFragments ++ sel.groupFragments
    ++ sel.orderFragments

theorem fragments_eq (sel : Select) : sel.fragments = sel.headFragments ++ sel.pageFragments := rfl

/-- A page is asked for without names and without values. -/
theorem verbatim_of_mem_pageFragments {fragment : Fragment Value}
    (member : fragment ∈ sel.pageFragments) : ∃ text, fragment = .verbatim text := by
  unfold pageFragments at member
  rcases List.mem_append.mp member with here | here
  · split at here
    · exact ⟨_, List.mem_singleton.mp here⟩
    · split at here
      · exact ⟨_, List.mem_singleton.mp here⟩
      · cases here
  · split at here
    · exact ⟨_, List.mem_singleton.mp here⟩
    · cases here

theorem sql_eq (sel : Select) : sel.statement.sql =
    Fragment.render sel.headFragments ++ pageText sel.limit sel.offset := by
  apply String.toList_injective
  unfold statement Statement.ofFragments Fragment.render
  rw [fragments_eq, List.flatMap_append]
  unfold pageFragments pageText
  split <;> split <;> simp_all [Fragment.text]

theorem params_eq (sel : Select) : sel.statement.params = Fragment.bounds sel.headFragments := by
  have valueless : sel.pageFragments.filterMap Fragment.bound? = [] := by
    refine List.filterMap_eq_nil_iff.mpr fun fragment member => ?_
    obtain ⟨text, rfl⟩ := verbatim_of_mem_pageFragments member
    rfl
  unfold statement Statement.ofFragments Fragment.bounds
  dsimp only
  rw [fragments_eq, List.filterMap_append, valueless, List.append_nil]

/-- A page is asked for at the end of the statement. -/
theorem statement_paged (sel : Select) (limit offset : Nat) : (sel.paged limit offset).statement =
    { (sel.paged 0 0).statement with
      sql := (sel.paged 0 0).statement.sql ++ pageText limit offset } := by
  have unpaged : (sel.paged 0 0).statement.sql = Fragment.render sel.headFragments := by
    rw [sql_eq]
    exact String.append_empty
  calc (sel.paged limit offset).statement
      = ⟨sel.table, (sel.paged limit offset).statement.sql,
          (sel.paged limit offset).statement.params⟩ := rfl
    _ = ⟨sel.table, Fragment.render sel.headFragments ++ pageText limit offset,
          (sel.paged 0 0).statement.params⟩ := by
        rw [sql_eq, params_eq, params_eq]
        rfl
    _ = _ := by rw [← unpaged]; rfl

/-- A statement breaks off at the same place whatever its page. -/
theorem requireWhole_paged {names : String → Prop} (within : sel.Within names)
    (limit offset : Nat) :
    (Sql.requireWhole (sel.paged limit offset).statement.sql).mapError Fault.bare =
      (Sql.requireWhole (sel.paged 0 0).statement.sql).mapError Fault.bare := by
  have broken (other : Select) :
      Fragment.broken? other.fragments = Fragment.broken? other.headFragments := by
    have nameless : other.pageFragments.flatMap Fragment.names = [] := by
      refine List.flatMap_eq_nil_iff.mpr fun fragment member => ?_
      obtain ⟨text, rfl⟩ := verbatim_of_mem_pageFragments member
      rfl
    rw [Fragment.broken?, fragments_eq, List.flatMap_append, nameless, List.append_nil]
    rfl
  have within' (k o : Nat) : (sel.paged k o).Within names :=
    ⟨within.table, within.projections, within.join, within.condition, within.groupBy, within.order⟩
  have head : Fragment.broken? (sel.paged limit offset).fragments =
      Fragment.broken? (sel.paged 0 0).fragments :=
    (broken (sel.paged limit offset)).trans (broken (sel.paged 0 0)).symm
  calc (Sql.requireWhole (sel.paged limit offset).statement.sql).mapError Fault.bare
      = _ := Sql.requireWhole_render (within' limit offset).orderly
    _ = _ := by rw [head]
    _ = (Sql.requireWhole (sel.paged 0 0).statement.sql).mapError Fault.bare :=
        (Sql.requireWhole_render (within' 0 0).orderly).symm

end Select

end TableAccess
