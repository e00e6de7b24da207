import TableAccess.Proofs.Mutation.Parallel
import TableAccess.Proofs.Placeholders

/-!
# Values do not shape statements

The text of a statement depends on the values of a request only by their being null where a
comparison asks for that, and by the lengths of lists. What is bound are values of the request,
each in the place of the value that another request has instead of it.
-/

namespace TableAccess

variable {related : Value → Value → Prop} {s : Snapshot} {name : String}

/-- Related values of two requests. -/
def Between (related : Value → Value → Prop) (values others : List Value) (v w : Value) : Prop :=
  related v w ∧ v ∈ values ∧ w ∈ others

def NewRows.values (rows : NewRows) : List Value := rows.toList.flatMap NameMap.values

/-- Rows in lists are parallel for every relation that the given one implies of their values. -/
theorem forall₂_weaken {rows others : List RowValues} {weaker : Value → Value → Prop}
    (each : List.Forall₂ (NameMap.Parallel related) rows others)
    (weaken : ∀ v ∈ rows.flatMap NameMap.values, ∀ w ∈ others.flatMap NameMap.values,
      related v w → weaker v w) :
    List.Forall₂ (NameMap.Parallel weaker) rows others := by
  refine forall₂_of_mem each fun row here other there parallel => ?_
  refine parallel.weaken fun v held w kept => ?_
  exact weaken v (List.mem_flatMap.mpr ⟨row, here, held⟩) w
    (List.mem_flatMap.mpr ⟨other, there, kept⟩)

theorem NewRows.Parallel.weaken {rows others : NewRows} {weaker : Value → Value → Prop}
    (parallel : rows.Parallel related others)
    (weaken : ∀ v ∈ rows.values, ∀ w ∈ others.values, related v w → weaker v w) :
    rows.Parallel weaker others := by
  cases parallel with
  | single parallel =>
      have each := forall₂_weaken (.cons parallel .nil) weaken
      cases each with
      | cons whole _ => exact .single whole
  | many each => exact .many (forall₂_weaken each weaken)

theorem BulkUpdate.RowParallel.weaken {keys : List String} {rows others : List RowValues}
    {weaker : Value → Value → Prop} (each : List.Forall₂ (RowParallel keys related) rows others)
    (weaken : ∀ v ∈ rows.flatMap NameMap.values, ∀ w ∈ others.flatMap NameMap.values,
      related v w → weaker v w) :
    List.Forall₂ (RowParallel keys weaker) rows others := by
  refine forall₂_of_mem each fun row here other there parallel => ?_
  refine ⟨parallel.entries.weaken fun v held w kept => ?_, parallel.nullity⟩
  exact weaken v (List.mem_flatMap.mpr ⟨row, here, held⟩) w
    (List.mem_flatMap.mpr ⟨other, there, kept⟩)

/-- Two requests that differ only in their values, with null in the same places where null is
asked for and in the keys of a bulk update, are refused alike or have the same text. The values
that they bind are their own, and related as those of the requests are. -/
theorem parallel_requests_agree (s : Snapshot) (related : Value → Value → Prop) :
    (∀ q other : Query, q.Parallel s related other →
      Agree (Statement.Parallel (Between related q.values other.values))
        (q.build s) (other.build s)) ∧
    (∀ (name : String) (set others : RowValues) (f g : Filter), set.Parallel related others →
      Filter.Parallel (s.AsksNull name) related f g →
        Agree (fun u v => Statement.Parallel
            (Between related (set.values ++ f.values) (others.values ++ g.values))
            u.statement v.statement)
          (Update.compile s name set f) (Update.compile s name others g)) ∧
    (∀ (name : String) (f g : Filter), Filter.Parallel (s.AsksNull name) related f g →
      Agree (fun d e => Statement.Parallel (Between related f.values g.values)
          d.statement e.statement)
        (Delete.compile s name f) (Delete.compile s name g)) ∧
    (∀ (name : String) (rows others : NewRows), rows.Parallel related others →
      Agree (fun i j => Batch.Parallel (Between related rows.values others.values) i.batch j.batch ∧
          i.reportsLastId = j.reportsLastId)
        (Insert.compile s name rows) (Insert.compile s name others)) ∧
    ∀ (name : String) (rows others : List RowValues) (keys : List String) (chunkSize : Nat),
      List.Forall₂ (BulkUpdate.RowParallel keys related) rows others →
        Agree (Option.Rel fun b c => List.Forall₂ (Batch.Parallel (Between related
            (rows.flatMap NameMap.values) (others.flatMap NameMap.values)))
            (b.batches chunkSize) (c.batches chunkSize))
          (BulkUpdate.compile s name rows keys chunkSize)
          (BulkUpdate.compile s name others keys chunkSize) := by
  refine ⟨?queries, ?updates, ?deletions, ?inserts, ?bulks⟩
  case queries =>
    intro q other parallel
    have own : q.Parallel s (Between related q.values other.values) other :=
      parallel.weaken fun v here w there values => ⟨values, here, there⟩
    exact own.build
  case updates =>
    intro name set others f g rows filters
    have ownRows : set.Parallel
        (Between related (set.values ++ f.values) (others.values ++ g.values)) others :=
      rows.weaken fun v here w there values =>
        ⟨values, List.mem_append_left _ here, List.mem_append_left _ there⟩
    have ownFilters : Filter.Parallel (s.AsksNull name)
        (Between related (set.values ++ f.values) (others.values ++ g.values)) f g :=
      filters.weaken fun v here w there values =>
        ⟨values, List.mem_append_right _ here, List.mem_append_right _ there⟩
    exact Update.compile_agree ownRows ownFilters
  case deletions =>
    intro name f g filters
    have own : Filter.Parallel (s.AsksNull name) (Between related f.values g.values) f g :=
      filters.weaken fun v here w there values => ⟨values, here, there⟩
    exact Delete.compile_agree own
  case inserts =>
    intro name rows others parallel
    have own : rows.Parallel (Between related rows.values others.values) others :=
      parallel.weaken fun v here w there values => ⟨values, here, there⟩
    exact Insert.compile_agree own
  case bulks =>
    intro name rows others keys chunkSize each
    have own := BulkUpdate.RowParallel.weaken each fun v here w there values =>
      (⟨values, here, there⟩ : Between related (rows.flatMap NameMap.values)
        (others.flatMap NameMap.values) v w)
    exact BulkUpdate.batches_agree own

/-! ## Requests with other values -/

/-- What was sold of an item, with conditions on both tables and in a group. -/
def soldOf (item sold : Value) : Query where
  table := "items"
  filter := .entries
    [("id", .scalar item),
      ("or__", .group
        [.entries [("price__gt", .scalar sold)],
          .entries [("status__notin", .list [item, sold])]])]
  join := some
    { primaryTable := "items"
      primaryColumn := "id"
      secondaryTable := "sta\"lls?"
      secondaryColumn := "item"
      condition := .entries [("sold?__in", .list [sold])] }

def stallOf (item sold : Value) : RowValues := .ofList [("item", item), ("sold?", sold)]

/-- Two values and what is put in their places. -/
def Replaced (v w : Value) : Prop :=
  v = .int 2 ∧ w = .text "\" OR 1 = 1" ∨ v = .int 7 ∧ w = .null

theorem replaced_item : Replaced (.int 2) (.text "\" OR 1 = 1") := .inl ⟨rfl, rfl⟩

theorem replaced_sold : Replaced (.int 7) .null := .inr ⟨rfl, rfl⟩

theorem parallel_soldOf :
    (soldOf (.int 2) (.int 7)).Parallel market Replaced (soldOf (.text "\" OR 1 = 1") .null) := by
  have item := replaced_item
  have sold := replaced_sold
  have unasked : ¬ market.AsksNull "items" "price__gt" := by
    rintro ⟨t, found, field, op, read, asks⟩
    cases found
    cases read
    rcases asks with same | same
    · cases same
    · cases same
  refine ⟨rfl, .entries (.cons (.scalar item fun _ => by simp) (.cons (.group ?_) .nil)),
    .some ⟨rfl, .entries (.cons (.list (.cons sold .nil)) .nil)⟩⟩
  refine .cons (.entries (.cons (.scalar sold fun asks => absurd asks unasked) .nil)) ?_
  exact .cons (.entries (.cons (.list (.cons item (.cons sold .nil))) .nil)) .nil

theorem parallel_stallOf : (stallOf (.int 2) (.int 7)).Parallel Replaced
    (stallOf (.text "\" OR 1 = 1") .null) :=
  .cons ⟨rfl, replaced_item⟩ (.cons ⟨rfl, replaced_sold⟩ .nil)

/-- Parallel rows with keys that are not null. -/
theorem rowParallel_stallOf : BulkUpdate.RowParallel ["item"] Replaced (stallOf (.int 2) (.int 7))
    (stallOf (.text "\" OR 1 = 1") .null) := by
  refine ⟨parallel_stallOf, fun key given => ?_⟩
  rw [List.mem_singleton.mp given]
  have held : (stallOf (.int 2) (.int 7)).get? "item" = some (.int 2) := rfl
  have other : (stallOf (.text "\" OR 1 = 1") .null).get? "item" = some (.text "\" OR 1 = 1") := rfl
  rw [held, other]
  simp

theorem parallel_requests_agree_soldOf :
    (∃ st other, (soldOf (.int 2) (.int 7)).build market = .ok st ∧
      (soldOf (.text "\" OR 1 = 1") .null).build market = .ok other ∧ st.sql = other.sql ∧
      List.Forall₂ Replaced st.params other.params) ∧
    (∃ u v, Update.compile market "sta\"lls?" (stallOf (.int 2) (.int 7))
        (.entries [("item", .scalar (.int 2))]) = .ok u ∧
      Update.compile market "sta\"lls?" (stallOf (.text "\" OR 1 = 1") .null)
        (.entries [("item", .scalar (.text "\" OR 1 = 1"))]) = .ok v ∧
      u.statement.sql = v.statement.sql) ∧
    (∃ d e, Delete.compile market "sta\"lls?" (.entries [("item", .scalar (.int 2))]) = .ok d ∧
      Delete.compile market "sta\"lls?"
        (.entries [("item", .scalar (.text "\" OR 1 = 1"))]) = .ok e ∧
      d.statement.sql = e.statement.sql) ∧
    (∃ i j, Insert.compile market "sta\"lls?" (.single (stallOf (.int 2) (.int 7))) = .ok i ∧
      Insert.compile market "sta\"lls?"
        (.single (stallOf (.text "\" OR 1 = 1") .null)) = .ok j ∧
      i.batch.sql = j.batch.sql) ∧
    ∃ b c, BulkUpdate.compile market "sta\"lls?" [stallOf (.int 2) (.int 7)] ["item"] 1 = .ok b ∧
      BulkUpdate.compile market "sta\"lls?" [stallOf (.text "\" OR 1 = 1") .null] ["item"] 1 =
        .ok c ∧ b.isSome = true ∧ c.isSome = true := by
  obtain ⟨queries, updates, deletions, inserts, bulks⟩ := parallel_requests_agree market Replaced
  have filters (asks : String → Prop) : Filter.Parallel asks Replaced
      (.entries [("item", .scalar (.int 2))])
      (.entries [("item", .scalar (.text "\" OR 1 = 1"))]) :=
    .entries (.cons (.scalar replaced_item fun _ => by simp) .nil)
  refine ⟨?_, ?_, ?_, ?_, ?_⟩
  · obtain ⟨other, built, same⟩ := (queries _ _ parallel_soldOf).of_ok rfl
    exact ⟨_, other, rfl, built, same.sql, same.params.imp fun _ _ between => between.1⟩
  · obtain ⟨v, accepted, same⟩ :=
      (updates "sta\"lls?" _ _ _ _ parallel_stallOf (filters _)).of_ok rfl
    exact ⟨_, v, rfl, accepted, same.sql⟩
  · obtain ⟨e, accepted, same⟩ := (deletions "sta\"lls?" _ _ (filters _)).of_ok rfl
    exact ⟨_, e, rfl, accepted, same.sql⟩
  · obtain ⟨j, accepted, same, _⟩ :=
      (inserts "sta\"lls?" _ _ (.single parallel_stallOf)).of_ok rfl
    exact ⟨_, j, rfl, accepted, same.sql⟩
  · obtain ⟨c, accepted, same⟩ :=
      (bulks "sta\"lls?" _ _ ["item"] 1 (.cons rowParallel_stallOf .nil)).of_ok rfl
    cases same with
    | some same => exact ⟨_, _, rfl, accepted, rfl, rfl⟩

end TableAccess
