import TableAccess.Proofs.Mutation.Guard
import TableAccess.Proofs.Mutation.Placeholders
import TableAccess.Proofs.Query.Placeholders

/-!
# Placeholders and bound values

Whatever is asked for and whatever the tables and columns are called, a statement has one
placeholder for each value that it binds, and each value is bound where it belongs.
-/

namespace TableAccess

open Sql (Binds)

/-- Every accepted request has as many placeholders as values, and putting the values in the
places of the placeholders gives the request with its values where they belong: a query has the
values of its join before those of its filter, an update what is set before the values of its
filter, and each row of a bulk update what is set before the keys. -/
theorem placeholders_match_params (s : Snapshot) :
    (∀ (q : Query) (st : Statement), q.build s = .ok st →
      ∃ sel t, q.plan s = .ok sel ∧ s.resolve q.table = .ok t ∧
        t.compile q.filter = .ok sel.condition ∧ Query.joinValues s q.join = .ok sel.joinValues ∧
        st.params = sel.joinValues ++ sel.condition.values ∧ Binds st.sql st.params sel.filled) ∧
    (∀ (name : String) (set : RowValues) (f : Filter) (u : Update),
      Update.compile s name set f = .ok u →
        ∃ t, s.resolve name = .ok t ∧ t.compile f = .ok u.condition ∧
          Assignment.ofKeys t set.entries = .ok u.assignments ∧
          u.statement.params = set.values ++ u.condition.values ∧
          Binds u.statement.sql u.statement.params u.filled) ∧
    (∀ (name : String) (f : Filter) (d : Delete), Delete.compile s name f = .ok d →
      ∃ t, s.resolve name = .ok t ∧ t.compile f = .ok d.condition ∧
        d.statement.params = d.condition.values ∧
        Binds d.statement.sql d.statement.params d.filled) ∧
    (∀ (name : String) (rows : NewRows) (i : Insert), Insert.compile s name rows = .ok i →
      i.batch.paramSets = rows.toList.map NameMap.values ∧
        ∀ row ∈ rows.toList, Binds i.batch.sql row.values (Insert.filledRow i.table row)) ∧
    ∀ (name : String) (rows : List RowValues) (keys : List String) (chunkSize : Nat)
      (b : BulkUpdate), BulkUpdate.compile s name rows keys chunkSize = .ok (some b) →
        ∀ batch ∈ b.batches chunkSize, ∀ params ∈ batch.paramSets,
          ∃ row ∈ rows, ∃ t as, s.resolve name = .ok t ∧
            Assignment.ofKeys t (BulkUpdate.setEntries keys row) = .ok as ∧
            params.map some =
              (BulkUpdate.setEntries keys row).map (fun entry => some entry.2)
                ++ keys.map row.get? ∧
            Binds batch.sql params
              (filledUpdate t.name as (BulkUpdate.filledKeys keys row)) :=
  ⟨fun _ _ accepted => Query.binds_of_build accepted,
    fun _ _ _ _ accepted => Update.binds_of_compile accepted,
    fun _ _ _ accepted => Delete.binds_of_compile accepted,
    fun _ _ _ accepted => Insert.binds_of_compile accepted,
    fun _ _ _ _ _ accepted _ cut _ here => BulkUpdate.binds_of_compile accepted cut here⟩

/-! ## Requests about a market -/

/-- A table whose names contain a quote and question marks. -/
def stalls : Table where
  name := "sta\"lls?"
  columns :=
    [{ name := "item", declared := "INTEGER" }, { name := "sold?", declared := "INTEGER" }]

def market : Snapshot := .ofList [items, stalls]

def stallsOfItems : Query where
  table := "items"
  filter := nestedFilter
  join := some
    { primaryTable := "items"
      primaryColumn := "id"
      secondaryTable := "sta\"lls?"
      secondaryColumn := "item"
      condition := .entries [("sold?__in", .list [.int 7, .int 8])] }
  limit := 5

def twoStalls : List RowValues :=
  [.ofList [("item", .int 1), ("sold?", .int 10)], .ofList [("item", .int 2), ("sold?", .null)]]

theorem placeholders_match_params_market :
    (∃ st, stallsOfItems.build market = .ok st ∧ st.params = [.int 7, .int 8, .int 2] ∧
      Sql.marks false st.sql.toList = 3) ∧
    (∃ u, Update.compile market "items" markUp nestedFilter = .ok u ∧
      u.statement.params = [.int 1, .text "new", .int 2] ∧
      Sql.marks false u.statement.sql.toList = 3) ∧
    (∃ d, Delete.compile market "items" nestedFilter = .ok d ∧
      d.statement.params = [.int 2] ∧ Sql.marks false d.statement.sql.toList = 1) ∧
    (∃ i, Insert.compile market "sta\"lls?" (.many twoStalls) = .ok i ∧
      i.batch.paramSets = [[.int 1, .int 10], [.int 2, .null]] ∧
      Sql.marks false i.batch.sql.toList = 2) ∧
    ∃ b, BulkUpdate.compile market "sta\"lls?" twoStalls ["item"] 1 = .ok (some b) ∧
      (b.batches 1).map (·.paramSets) = [[[.int 10, .int 1]], [[.null, .int 2]]] ∧
      ∀ batch ∈ b.batches 1, ∀ params ∈ batch.paramSets,
        Sql.marks false batch.sql.toList = params.length := by
  obtain ⟨queries, updates, deletions, inserts, bulks⟩ := placeholders_match_params market
  refine ⟨⟨_, rfl, ?_⟩, ⟨_, rfl, ?_⟩, ⟨_, rfl, ?_⟩, ⟨_, rfl, ?_⟩, ⟨_, rfl, ?_⟩⟩
  · obtain ⟨_, _, _, _, _, _, _, binds⟩ := queries stallsOfItems _ rfl
    exact ⟨rfl, binds.count⟩
  · obtain ⟨_, _, _, _, _, binds⟩ := updates "items" markUp nestedFilter _ rfl
    exact ⟨rfl, binds.count⟩
  · obtain ⟨_, _, _, _, binds⟩ := deletions "items" nestedFilter _ rfl
    exact ⟨rfl, binds.count⟩
  · obtain ⟨listed, each⟩ := inserts "sta\"lls?" (.many twoStalls) _ rfl
    exact ⟨listed, (each _ List.mem_cons_self).count⟩
  · refine ⟨rfl, fun batch cut params here => ?_⟩
    obtain ⟨_, _, _, _, _, _, _, binds⟩ :=
      bulks "sta\"lls?" twoStalls ["item"] 1 _ rfl batch cut params here
    exact binds.count

end TableAccess
