import TableAccess.Mutation.BulkUpdate
import TableAccess.Query.Written

/-!
# Rejected requests

Whatever a compiler finds wrong with a request, its error is one of those that are told apart as
found before any statement was run: each check that a compiler consists of refuses with such an
error only, and so does the chain of them.
-/

namespace TableAccess

/-- A check that refuses only with errors that are found before any statement is run. -/
def Rejects {α : Type} (r : Except Error α) : Prop :=
  ∀ e, r = .error e → e.isCompileError = true

namespace Rejects

variable {α β : Type}

theorem ok (a : α) : Rejects (.ok a) := fun _ failed => nomatch failed

theorem error {e : Error} (found : e.isCompileError = true) :
    Rejects (.error e : Except Error α) := by
  rintro _ ⟨⟩
  exact found

theorem bind {r : Except Error α} {next : α → Except Error β} (first : Rejects r)
    (later : ∀ a, Rejects (next a)) : Rejects (r >>= next) := by
  intro e failed
  cases r with
  | ok a => exact later a e failed
  | error other =>
      cases failed
      exact first _ rfl

/-- A check whose value is only changed refuses as before. -/
theorem map {r : Except Error α} (first : Rejects r) (change : α → β) : Rejects (r.map change) := by
  intro e failed
  cases r with
  | ok a => cases failed
  | error other =>
      cases failed
      exact first _ rfl

/-- A refusal that may come before the rest of a chain. -/
theorem refuse {cause : Prop} [Decidable cause] {e : Error} {next : Unit → Except Error β}
    (found : e.isCompileError = true) (later : Rejects (next ())) :
    Rejects (if cause then throw e >>= next else next ()) := by
  split
  · exact .error found
  · exact later

end Rejects

/-! ## Names and keys -/

theorem Snapshot.rejects_resolve (s : Snapshot) (name : String) : Rejects (s.resolve name) := by
  unfold resolve
  split
  · exact .ok _
  · exact .error rfl

namespace Table

variable (t : Table)

theorem rejects_requireColumn (name : String) : Rejects (t.requireColumn name) := by
  unfold requireColumn
  split
  · exact .ok _
  · exact .error rfl

theorem rejects_splitKey (key : String) : Rejects (t.splitKey key) := by
  unfold splitKey
  split
  · exact .ok _
  · split
    · exact .ok _
    · exact .error rfl

theorem rejects_parseKey (key : String) : Rejects (t.parseKey key) := by
  refine (t.rejects_splitKey key).bind fun split => ?_
  rcases split with ⟨field, _ | suffix⟩
  · exact .ok _
  · dsimp only
    split
    · exact .ok _
    · exact .error rfl

theorem rejects_plainColumn (key : String) : Rejects (t.plainColumn key) := by
  refine (t.rejects_splitKey key).bind fun split => ?_
  rcases split with ⟨field, _ | suffix⟩
  · exact .ok _
  · exact .error rfl

/-! ## Filters -/

theorem rejects_compileEntry (key : String) (given : FilterValue) :
    Rejects (t.compileEntry key given) := by
  refine (t.rejects_parseKey key).bind fun parsed => ?_
  dsimp only
  split
  · exact .ok _
  · exact .ok _
  · exact .ok _
  · exact .error rfl
  · exact .error rfl

mutual

/-- A filter is refused by the check of one of its entries. -/
theorem rejects_compile (f : Filter) : Rejects (t.compile f) := by
  cases f with
  | entries list => exact (rejects_compileEntries list).bind fun _ => .ok _

theorem rejects_compileEntries (list : List (String × FilterValue)) :
    Rejects (t.compileEntries list) := by
  cases list with
  | nil => exact .ok _
  | cons head rest =>
      refine (rejects_compileValue head.1 head.2).bind fun part => ?_
      exact (rejects_compileEntries rest).bind fun _ => .ok _

theorem rejects_compileValue (key : String) (given : FilterValue) :
    Rejects (t.compileValue key given) := by
  cases given with
  | scalar v =>
      rw [compileValue]
      split
      · exact .error rfl
      · exact t.rejects_compileEntry key _
  | list vs =>
      rw [compileValue]
      split
      · exact .error rfl
      · exact t.rejects_compileEntry key _
  | group members =>
      rw [compileValue]
      split
      · exact (rejects_compileMembers members).bind fun _ => .ok _
      · exact t.rejects_compileEntry key _

theorem rejects_compileMembers (members : List Filter) : Rejects (t.compileMembers members) := by
  cases members with
  | nil => exact .ok _
  | cons member rest =>
      refine (rejects_compile member).bind fun part => .refuse rfl ?_
      exact (rejects_compileMembers rest).bind fun _ => .ok _

end

theorem rejects_requiredPredicate (f : Filter) (operation : Operation) :
    Rejects (t.requiredPredicate f operation) := by
  unfold requiredPredicate
  refine .refuse rfl ((t.rejects_compile f).bind fun condition => ?_)
  dsimp only
  exact .refuse rfl (.ok _)

end Table

/-! ## Queries -/

namespace Query

variable {t : Table}

theorem rejects_resolveJoin (q : Query) (s : Snapshot) : Rejects (q.resolveJoin s) := by
  unfold resolveJoin
  split
  · exact .ok _
  · exact .refuse rfl ((s.rejects_resolve _).bind fun _ => .ok _)

theorem rejects_columnProjections (t : Table) (names : List String) :
    Rejects (columnProjections t names) := by
  induction names with
  | nil => exact .ok _
  | cons name rest ih =>
      exact (t.rejects_requireColumn name).bind fun _ => ih.bind fun _ => .ok _

theorem rejects_aggregateProjection (t : Table) (a : Aggregate) :
    Rejects (aggregateProjection t a) := by
  unfold aggregateProjection
  split
  · exact (t.rejects_requireColumn _).bind fun _ => .refuse rfl (.ok _)
  · exact .error rfl

theorem rejects_aggregateProjections (t : Table) (list : List Aggregate) :
    Rejects (aggregateProjections t list) := by
  induction list with
  | nil => exact .ok _
  | cons a rest ih =>
      exact (rejects_aggregateProjection t a).bind fun _ => ih.bind fun _ => .ok _

theorem rejects_projections (q : Query) (t : Table) (joined : Option (Join × Table)) :
    Rejects (q.projections t joined) := by
  have aggregates (shown : List Projection → List Projection) (secondary : List Projection) :
      Rejects (do pure (shown secondary ++ (← aggregateProjections t q.aggregates))) :=
    (rejects_aggregateProjections t q.aggregates).bind fun _ => .ok _
  unfold projections
  cases joined with
  | none =>
      dsimp only
      split
      · exact aggregates _ []
      · exact (rejects_columnProjections t _).bind fun _ => aggregates _ []
  | some found =>
      have secondary := rejects_columnProjections found.2 found.1.columns
      dsimp only
      split
      · exact secondary.bind (aggregates _)
      · exact (rejects_columnProjections t _).bind fun _ => secondary.bind (aggregates _)

theorem rejects_joinedTable (t : Table) (joined : Option (Join × Table)) :
    Rejects (joinedTable t joined) := by
  cases joined with
  | none => exact .ok _
  | some found =>
      refine (t.rejects_requireColumn _).bind fun _ => ?_
      refine (found.2.rejects_requireColumn _).bind fun _ => ?_
      exact (found.2.rejects_compile _).bind fun _ => .ok _

theorem rejects_orderTarget (q : Query) (t : Table) : Rejects (q.orderTarget t) := by
  unfold orderTarget
  split
  · exact .ok _
  · split
    · exact .ok _
    · split
      · exact .ok _
      · exact .error rfl

theorem rejects_plan (q : Query) (s : Snapshot) : Rejects (q.plan s) := by
  refine (s.rejects_resolve q.table).bind fun t => ?_
  refine (q.rejects_resolveJoin s).bind fun joined => ?_
  refine (q.rejects_projections t joined).bind fun projections => ?_
  refine (t.rejects_compile q.filter).bind fun condition => ?_
  refine (rejects_joinedTable t joined).bind fun join => ?_
  refine (rejects_columnProjections t q.groupBy).bind fun _ => ?_
  exact (q.rejects_orderTarget t).bind fun _ => .ok _

theorem rejects_build (q : Query) (s : Snapshot) : Rejects (q.build s) :=
  (q.rejects_plan s).bind fun _ => .ok _

end Query

/-! ## Changes -/

theorem rejects_checkColumns (table : String) (columns : List String) (index : Nat)
    (rows : List RowValues) : Rejects (checkColumns table columns index rows) := by
  induction rows generalizing index with
  | nil => exact .ok _
  | cons row rest ih =>
      unfold checkColumns
      split
      · exact ih _
      · exact .error rfl

theorem rejects_plainColumns (t : Table) (keys : List String) : Rejects (plainColumns t keys) := by
  induction keys with
  | nil => exact .ok _
  | cons key rest ih => exact (t.rejects_plainColumn key).bind fun _ => ih.bind fun _ => .ok _

theorem Insert.rejects_compile (s : Snapshot) (table : String) (rows : NewRows) :
    Rejects (compile s table rows) := by
  refine (s.rejects_resolve table).bind fun t => ?_
  split
  · exact .error rfl
  · refine (rejects_plainColumns t _).bind fun _ => ?_
    exact (rejects_checkColumns _ _ _ _).bind fun _ => .ok _

namespace Assignment

variable {α : Type}

theorem rejects_ofKey (t : Table) (key : String) (operand : α) : Rejects (ofKey t key operand) := by
  refine (t.rejects_splitKey key).bind fun split => ?_
  rcases split with ⟨field, _ | suffix⟩
  · exact .ok _
  · dsimp only
    split
    · refine (t.rejects_requireColumn field).bind fun c => ?_
      split
      · exact .ok _
      · exact .error rfl
    · exact .error rfl

theorem rejects_ofKeys (t : Table) (list : List (String × α)) : Rejects (ofKeys t list) := by
  induction list with
  | nil => exact .ok _
  | cons head rest ih =>
      exact (rejects_ofKey t head.1 head.2).bind fun _ => ih.bind fun _ => .ok _

end Assignment

theorem Update.rejects_compile (s : Snapshot) (table : String) (set : RowValues) (f : Filter) :
    Rejects (compile s table set f) := by
  refine (s.rejects_resolve table).bind fun t => .refuse rfl ?_
  refine (t.rejects_requiredPredicate f .update).bind fun _ => ?_
  exact (Assignment.rejects_ofKeys t _).bind fun _ => .ok _

theorem Delete.rejects_compile (s : Snapshot) (table : String) (f : Filter) :
    Rejects (compile s table f) :=
  (s.rejects_resolve table).bind fun t =>
    (t.rejects_requiredPredicate f .delete).bind fun _ => .ok _

namespace BulkUpdate

theorem rejects_requireKeys (t : Table) (keys : List String) : Rejects (requireKeys t keys) := by
  induction keys with
  | nil => exact .ok _
  | cons key rest ih => exact (t.rejects_requireColumn key).bind fun _ => ih

theorem rejects_containsKeys (table : String) (row : RowValues) (keys : List String) :
    Rejects (containsKeys table row keys) := by
  induction keys with
  | nil => exact .ok _
  | cons key rest ih =>
      unfold containsKeys
      split
      · exact ih
      · exact .error rfl

theorem rejects_keysNotNull (index : Nat) (row : RowValues) (keys : List String) :
    Rejects (keysNotNull index row keys) := by
  induction keys with
  | nil => exact .ok _
  | cons key rest ih =>
      unfold keysNotNull
      split
      · exact .error rfl
      · exact ih

theorem rejects_allKeysNotNull (keys : List String) (index : Nat) (rows : List RowValues) :
    Rejects (allKeysNotNull keys index rows) := by
  induction rows generalizing index with
  | nil => exact .ok _
  | cons row rest ih => exact (rejects_keysNotNull index row keys).bind fun _ => ih _

theorem rejects_compile (s : Snapshot) (table : String) (rows : List RowValues)
    (keys : List String) (chunkSize : Nat) : Rejects (compile s table rows keys chunkSize) := by
  refine (s.rejects_resolve table).bind fun t => .refuse rfl (.refuse rfl ?_)
  refine (rejects_requireKeys t keys).bind fun _ => ?_
  cases rows with
  | nil => exact .ok _
  | cons first rest =>
      refine (rejects_containsKeys table first keys).bind fun _ => ?_
      refine (rejects_checkColumns _ _ _ _).bind fun _ => .refuse rfl ?_
      refine (Assignment.rejects_ofKeys t _).bind fun _ => ?_
      exact (rejects_allKeysNotNull keys _ _).bind fun _ => .ok _

end BulkUpdate

end TableAccess
