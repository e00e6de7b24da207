import TableAccess.Proofs.Query.Names
import TableAccess.Query.Mention

/-!
# Columns in queries

A checked query shows something, its groups of conditions have parts and its lists have members,
what it is ordered by is shown if it is no column, and every column that its statement mentions was
found before: in the queried table, or in the joined one.
-/

namespace TableAccess

open Sql (Fragment)

variable {known : String → String → Prop}

/-! ## Columns in fragments -/

namespace Sql.Fragment

variable {α : Type} {fragment : Fragment α} {fragments others : List (Fragment α)}

/-- Fragments that mention no column of a table but known ones. -/
def MentionsOnly (known : String → String → Prop) (fragments : List (Fragment α)) : Prop :=
  ∀ table field, column table field ∈ fragments → known table field

@[simp] theorem mentionsOnly_nil : MentionsOnly known ([] : List (Fragment α)) :=
  fun _ _ member => nomatch member

@[simp] theorem mentionsOnly_cons : MentionsOnly known (fragment :: fragments) ↔
    (∀ table field, column table field = fragment → known table field) ∧
      MentionsOnly known fragments := by
  simp only [MentionsOnly, List.mem_cons, or_imp, forall_and]

@[simp] theorem mentionsOnly_append : MentionsOnly known (fragments ++ others) ↔
    MentionsOnly known fragments ∧ MentionsOnly known others := by
  simp only [MentionsOnly, List.mem_append, or_imp, forall_and]

theorem MentionsOnly.separated (separator : String) {parts : List (List (Fragment α))}
    (each : ∀ part ∈ parts, MentionsOnly known part) :
    MentionsOnly known (separated separator parts) := by
  induction parts using separated.induct with
  | case1 => simp [Fragment.separated]
  | case2 last => simpa [Fragment.separated] using each
  | case3 first next rest ih =>
      obtain ⟨here, later⟩ := List.forall_mem_cons.mp each
      simpa [Fragment.separated] using ⟨here, ih later⟩

theorem mem_separated_cons {first : List (Fragment α)} (member : fragment ∈ first)
    (separator : String) (rest : List (List (Fragment α))) :
    fragment ∈ separated separator (first :: rest) := by
  cases rest with
  | nil => exact member
  | cons next later => exact List.mem_append_left _ member

theorem mem_of_mem_columnsFrom {place : Nat} {found : String × String × Nat}
    (member : found ∈ columnsFrom place fragments) : column found.1 found.2.1 ∈ fragments := by
  induction fragments generalizing place with
  | nil => cases member
  | cons fragment rest ih =>
      unfold columnsFrom at member
      split at member
      · rcases List.mem_cons.mp member with rfl | later
        · exact List.mem_cons_self
        · exact List.mem_cons_of_mem _ (ih later)
      · exact List.mem_cons_of_mem _ (ih member)

theorem exists_mem_columnsFrom {table field : String} (member : column table field ∈ fragments)
    (place : Nat) : ∃ there, (table, field, there) ∈ columnsFrom place fragments := by
  induction fragments generalizing place with
  | nil => cases member
  | cons fragment rest ih =>
      unfold columnsFrom
      rcases List.mem_cons.mp member with rfl | later
      · exact ⟨place, List.mem_cons_self⟩
      · obtain ⟨there, listed⟩ := ih later (place + byteLength [fragment])
        refine ⟨there, ?_⟩
        split
        · exact List.mem_cons_of_mem _ listed
        · exact listed

end Sql.Fragment

theorem Mention.known_of_placed {before clause : List (Fragment Value)}
    (only : Fragment.MentionsOnly known clause) :
    ∀ m ∈ placed before clause, known m.table m.field :=
  List.forall_mem_map.mpr fun _ found => only _ _ (Fragment.mem_of_mem_columnsFrom found)

theorem Mention.exists_mem_placed {table field : String} {clause : List (Fragment Value)}
    (member : .column table field ∈ clause) (before : List (Fragment Value)) :
    ∃ m ∈ placed before clause, m.table = table ∧ m.field = field := by
  obtain ⟨there, listed⟩ := Fragment.exists_mem_columnsFrom member (Fragment.byteLength before)
  exact ⟨_, List.mem_map_of_mem listed, rfl, rfl⟩

theorem Mention.exists_mem_unplaced {table field : String} {clause : List (Fragment Value)}
    (member : .column table field ∈ clause) :
    ∃ m ∈ unplaced clause, m.table = table ∧ m.field = field := by
  obtain ⟨m, listed, same⟩ := exists_mem_placed member []
  exact ⟨_, List.mem_map_of_mem listed, same⟩

theorem Mention.known_of_unplaced {clause : List (Fragment Value)}
    (only : Fragment.MentionsOnly known clause) : ∀ m ∈ unplaced clause, known m.table m.field :=
  List.forall_mem_map.mpr fun m found => known_of_placed only m found

/-! ## Checked clauses -/

/-- A condition on a known column, and, if it has a list, on one with members. -/
structure Condition.Grounded (known : String → String → Prop) (c : Condition) : Prop where
  column : known c.table c.field
  members : ∀ vs, c.operand = .list vs → vs ≠ []

theorem Condition.Grounded.mentionsOnly {c : Condition} (grounded : c.Grounded known) :
    Fragment.MentionsOnly known c.fragments := by
  have slots (vs : List Value) : Fragment.MentionsOnly known
      (Fragment.separated ", " (vs.map fun v => [Fragment.slot v])) :=
    .separated _ (List.forall_mem_map.mpr fun v _ => by simp)
  unfold fragments
  cases c.test with
  | isNull | isNotNull | value op v => simpa using grounded.column
  | list op vs => simpa using ⟨grounded.column, slots vs⟩

namespace Predicate

theorem Solid.mentionsOnly {p : Predicate} (solid : Solid (Condition.Grounded known) p) :
    Fragment.MentionsOnly known p.fragments := by
  induction solid with
  | condition grounded => exact grounded.mentionsOnly
  | all _ _ ih | any _ _ ih =>
      unfold fragments
      rw [partFragments_eq_map]
      simpa using Fragment.MentionsOnly.separated _ (List.forall_mem_map.mpr ih)

theorem Normal.mentionsOnly {p : Predicate} (normal : Normal (Condition.Grounded known) p) :
    Fragment.MentionsOnly known p.fragments := by
  cases normal with
  | unrestricted | const outcome => simp [fragments]
  | solid solid => exact solid.mentionsOnly

/-- A clause that introduces a predicate mentions only what the predicate does. -/
theorem Normal.clause {p : Predicate} (normal : Normal (Condition.Grounded known) p)
    (before : String) : Fragment.MentionsOnly known
      (if p.isUnrestricted then [] else .verbatim before :: p.fragments) := by
  split
  · simp
  · simpa using normal.mentionsOnly

end Predicate

/-- A shown column or aggregate of a known column. -/
inductive Projection.Grounded (known : String → String → Prop) : Projection → Prop where
  | column {table field : String} (found : known table field) : Grounded known (column table field)
  | aggregate (function : AggregateFunction) {table field : String} (label : String)
      (found : known table field) : Grounded known (aggregate function table field label)

theorem Projection.Grounded.mentionsOnly {p : Projection} (grounded : p.Grounded known) :
    Fragment.MentionsOnly known p.fragments := by
  cases grounded with
  | column found | aggregate function label found => simpa [fragments] using found

/-- A joined side that compares known columns, on a condition in normal form. -/
structure JoinedTable.Grounded (known : String → String → Prop) (primary : String)
    (j : JoinedTable) : Prop where
  primaryColumn : known primary j.primaryColumn
  secondaryColumn : known j.table j.secondaryColumn
  condition : j.condition.Normal (Condition.Grounded known)

/-- A query that shows something and mentions only known columns. Its conditions are in normal
form, in which no group is empty, and the label that it may be ordered by is that of a shown
aggregate. -/
structure Select.Grounded (known : String → String → Prop) (s : Select) : Prop where
  nonempty : s.projections ≠ []
  projections : ∀ p ∈ s.projections, p.Grounded known
  join : ∀ j, s.join = some j → j.Grounded known s.table
  condition : s.condition.Normal (Condition.Grounded known)
  groupBy : ∀ field ∈ s.groupBy, known s.table field
  column : ∀ field direction, s.order = some (.column field, direction) → known s.table field
  label : ∀ label direction, s.order = some (.aggregate label, direction) →
    ∃ function table field, .aggregate function table field label ∈ s.projections

namespace Select.Grounded

variable {s : Select}

theorem shown (grounded : s.Grounded known) : Fragment.MentionsOnly known s.shownFragments := by
  have columns : Fragment.MentionsOnly known
      (Fragment.separated ", " (s.projections.map Projection.fragments)) :=
    .separated _ (List.forall_mem_map.mpr fun p listed =>
      (grounded.projections p listed).mentionsOnly)
  simpa [shownFragments] using columns

theorem sources (grounded : s.Grounded known) : Fragment.MentionsOnly known s.sourceFragments := by
  unfold sourceFragments
  cases side : s.join with
  | none => simp
  | some j =>
      have joined := grounded.join j side
      have restriction := joined.condition.clause " AND "
      simpa [JoinedTable.fragments] using
        ⟨joined.primaryColumn, joined.secondaryColumn, restriction⟩

theorem grouping (grounded : s.Grounded known) : Fragment.MentionsOnly known s.groupFragments := by
  unfold groupFragments
  split
  · simp
  · have columns : Fragment.MentionsOnly known (Fragment.separated ", "
        (s.groupBy.map fun field => [Fragment.column (α := Value) s.table field])) :=
      .separated _ (List.forall_mem_map.mpr fun field listed => by
        simpa using grounded.groupBy field listed)
    simpa using columns

theorem ordering (grounded : s.Grounded known) : Fragment.MentionsOnly known s.orderFragments := by
  unfold orderFragments
  cases order : s.order with
  | none => simp
  | some asked =>
      obtain ⟨target, direction⟩ := asked
      cases target with
      | column field => simpa using grounded.column field direction order
      | aggregate label => simp

/-- Every column that the statement of the query mentions is known. -/
theorem mentions (grounded : s.Grounded known) : ∀ m ∈ s.mentions, known m.table m.field := by
  have conditions : Fragment.MentionsOnly known s.whereFragments :=
    grounded.condition.clause " WHERE "
  unfold Select.mentions
  simp only [List.forall_mem_append]
  exact ⟨⟨⟨⟨Mention.known_of_placed grounded.shown, Mention.known_of_placed conditions⟩,
    Mention.known_of_unplaced grounded.sources⟩, Mention.known_of_placed grounded.ordering⟩,
    Mention.known_of_placed grounded.grouping⟩

/-- What is shown mentions some column. -/
theorem mentions_ne_nil (grounded : s.Grounded known) : s.mentions ≠ [] := by
  obtain ⟨p, rest, shown⟩ := List.exists_cons_of_ne_nil grounded.nonempty
  have mentioned : ∃ table field, .column table field ∈ p.fragments := by
    cases p with
    | column table field => exact ⟨table, field, List.mem_cons_self⟩
    | aggregate function table field label =>
        exact ⟨table, field, List.mem_cons_of_mem _ List.mem_cons_self⟩
  obtain ⟨table, field, here⟩ := mentioned
  have member : .column table field ∈ s.shownFragments := by
    unfold shownFragments
    rw [shown, List.map_cons]
    exact List.mem_cons_of_mem _ (Fragment.mem_separated_cons here ", " _)
  obtain ⟨m, listed, _⟩ := Mention.exists_mem_placed member []
  have placed : Mention.placed [] s.shownFragments ≠ [] := List.ne_nil_of_mem listed
  unfold Select.mentions
  simp [placed]

end Select.Grounded

/-! ## Accepted queries -/

namespace Query

variable {q : Query} {s : Snapshot} {t : Table}

/-- The columns that a query may mention: those of the queried table, and those of the joined
one. -/
inductive Column (q : Query) (s : Snapshot) : String → String → Prop where
  | queried {t : Table} {field : String} (found : s.resolve q.table = .ok t)
      (known : t.hasColumn field = true) : Column q s t.name field
  | joined {join : Join} {t : Table} {field : String} (asked : q.join = some join)
      (found : s.resolve join.secondaryTable = .ok t) (known : t.hasColumn field = true) :
      Column q s t.name field

/-- The conditions of a compiled filter are on columns of its table, and their lists have
members. -/
theorem grounded_of_compile {f : Filter} {p : Predicate} (compiled : t.compile f = .ok p)
    (wider : ∀ field, t.hasColumn field = true → known t.name field) :
    p.Normal (Condition.Grounded known) := by
  refine Predicate.normal_of_compile (fun key given c accepted => ?_) compiled
  obtain ⟨field, op, parsed, forms⟩ := Table.compileEntry_eq_ok accepted
  have column := wider field (Table.hasColumn_of_parseKey parsed)
  rcases forms with ⟨_, _, same⟩ | ⟨v, vs, _, _, same⟩ | ⟨v, _, _, same⟩
  · cases same
  · cases same
    refine ⟨column, ?_⟩
    rintro _ ⟨⟩
    exact List.cons_ne_nil v vs
  · cases same
    exact ⟨column, nofun⟩

theorem Showing.grounded (found : s.resolve q.table = .ok t) {p : Projection}
    (shown : q.Showing s t p) : p.Grounded (q.Column s) := by
  cases shown with
  | queried known => exact .column (.queried found known)
  | joined asked there known => exact .column (.joined asked there known)
  | aggregate function asked known => exact .aggregate function _ (.queried found known)

theorem Planned.join_grounded {joined : Option (Join × Table)} {sel : Select}
    (planned : q.Planned s t joined sel) :
    ∀ j, sel.join = some j → j.Grounded (q.Column s) t.name := by
  rcases planned.sides with ⟨_, alone⟩ | ⟨join, second, condition, asked, there, primary, secondary,
    compiled, side⟩
  · rw [alone]
    exact nofun
  · rw [side]
    rintro _ ⟨⟩
    exact ⟨.queried planned.found primary, .joined asked there secondary,
      grounded_of_compile compiled fun _ known => .joined asked there known⟩

/-- An accepted query of a table with columns shows something and mentions only columns that were
found. -/
theorem grounded_of_plan {sel : Select} (accepted : q.plan s = .ok sel)
    (columns : ∀ t, s.resolve q.table = .ok t → t.columns ≠ []) : sel.Grounded (q.Column s) := by
  obtain ⟨t, joined, planned⟩ := planned_of_plan accepted
  obtain ⟨shown, nonempty, aggregates⟩ := planned.shown
  have queried (field : String) (known : t.hasColumn field = true) :
      q.Column s sel.table field := planned.table ▸ .queried planned.found known
  exact
    { nonempty := nonempty (columns t planned.found)
      projections := fun p listed => (shown p listed).grounded planned.found
      join := planned.table ▸ planned.join_grounded
      condition := grounded_of_compile planned.condition (planned.table ▸ queried)
      groupBy := fun field listed =>
        queried field (planned.grouping field (planned.groupBy ▸ listed))
      column := fun field direction same => by
        have ordered := planned.order.trans (congrArg _ same)
        rcases orderTarget_cases ordered with ⟨_, ⟨⟩, known⟩ | ⟨_, _, ⟨⟩⟩
        exact queried field known
      label := fun label direction same => by
        have ordered := planned.order.trans (congrArg _ same)
        rcases orderTarget_cases ordered with ⟨_, ⟨⟩, _⟩ | ⟨a, asked, ⟨⟩⟩
        obtain ⟨function, listed⟩ := aggregates a asked
        exact ⟨function, _, _, listed⟩ }

end Query

end TableAccess
