import TableAccess.Proofs.Mutation.Names
import TableAccess.Proofs.Placeholders
import TableAccess.Proofs.Query.Names

/-!
# Names stay in their quotes

Whatever the tables and columns are called, no name in a statement is read as anything else: the
statement is scanned to its end, the names that are found there are names of the catalog or
labels that the request gave, and only fixed words and numbers of a page stand between them.
-/

namespace TableAccess

open Sql (Confined)

/-- The statement of every accepted request confines its names. A query may mention the names of
the queried and of the joined table and the labels of its aggregates, a change only the names of
the changed table. -/
theorem statements_confine_names (s : Snapshot) :
    (∀ (q : Query) (st : Statement), q.build s = .ok st → Confined (q.Names s) st.sql.toList) ∧
    (∀ (name : String) (set : RowValues) (f : Filter) (u : Update),
      Update.compile s name set f = .ok u →
        ∃ t, s.resolve name = .ok t ∧ Confined t.Names u.statement.sql.toList) ∧
    (∀ (name : String) (f : Filter) (d : Delete), Delete.compile s name f = .ok d →
      ∃ t, s.resolve name = .ok t ∧ Confined t.Names d.statement.sql.toList) ∧
    (∀ (name : String) (rows : NewRows) (i : Insert), Insert.compile s name rows = .ok i →
      ∃ t, s.resolve name = .ok t ∧ Confined t.Names i.batch.sql.toList) ∧
    ∀ (name : String) (rows : List RowValues) (keys : List String) (chunkSize : Nat)
      (b : BulkUpdate), BulkUpdate.compile s name rows keys chunkSize = .ok (some b) →
        ∃ t, s.resolve name = .ok t ∧
          ∀ batch ∈ b.batches chunkSize, Confined t.Names batch.sql.toList :=
  ⟨fun _ _ accepted => Query.confined_of_build accepted,
    fun _ _ _ _ accepted => Update.confined_of_compile accepted,
    fun _ _ _ accepted => Delete.confined_of_compile accepted,
    fun _ _ _ accepted => Insert.confined_of_compile accepted,
    fun _ _ _ _ _ accepted => BulkUpdate.confined_of_compile accepted⟩

theorem statements_confine_names_market :
    (∃ st, stallsOfItems.build market = .ok st ∧
      Confined (stallsOfItems.Names market) st.sql.toList) ∧
    (∃ u, Update.compile market "items" markUp nestedFilter = .ok u ∧
      Confined items.Names u.statement.sql.toList) ∧
    (∃ d, Delete.compile market "items" nestedFilter = .ok d ∧
      Confined items.Names d.statement.sql.toList) ∧
    (∃ i, Insert.compile market "sta\"lls?" (.many twoStalls) = .ok i ∧
      Confined stalls.Names i.batch.sql.toList) ∧
    ∃ b, BulkUpdate.compile market "sta\"lls?" twoStalls ["item"] 1 = .ok (some b) ∧
      ∀ batch ∈ b.batches 1, Confined stalls.Names batch.sql.toList := by
  obtain ⟨queries, updates, deletions, inserts, bulks⟩ := statements_confine_names market
  have items_found : market.resolve "items" = .ok items := by rfl
  have stalls_found : market.resolve "sta\"lls?" = .ok stalls := by rfl
  refine ⟨⟨_, rfl, queries stallsOfItems _ rfl⟩, ⟨_, rfl, ?_⟩, ⟨_, rfl, ?_⟩, ⟨_, rfl, ?_⟩,
    ⟨_, rfl, ?_⟩⟩
  · obtain ⟨t, found, confined⟩ := updates "items" markUp nestedFilter _ rfl
    obtain rfl := Except.ok.inj (items_found.symm.trans found)
    exact confined
  · obtain ⟨t, found, confined⟩ := deletions "items" nestedFilter _ rfl
    obtain rfl := Except.ok.inj (items_found.symm.trans found)
    exact confined
  · obtain ⟨t, found, confined⟩ := inserts "sta\"lls?" (.many twoStalls) _ rfl
    obtain rfl := Except.ok.inj (stalls_found.symm.trans found)
    exact confined
  · obtain ⟨t, found, confined⟩ := bulks "sta\"lls?" twoStalls ["item"] 1 _ rfl
    obtain rfl := Except.ok.inj (stalls_found.symm.trans found)
    exact confined

end TableAccess
