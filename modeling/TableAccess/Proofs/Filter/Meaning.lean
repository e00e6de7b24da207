import TableAccess.Proofs.Predicate.Compilation
import TableAccess.Proofs.Predicate.Folding

/-!
# The meaning of filters

What a filter means, by recursion on the filter alone: all of its entries hold
together, and of a group that has members at least one does. A plain entry asks a
question about a column. Compilation keeps this meaning, whatever the answers are and
however deep the groups are nested.
-/

namespace TableAccess

namespace Filter

mutual

/-- The truth of a filter, given that of its plain entries. -/
def truth (plain : String → FilterValue → Truth) : Filter → Truth
  | .entries list => .all (entryTruths plain list)

def entryTruths (plain : String → FilterValue → Truth) :
    List (String × FilterValue) → List Truth
  | [] => []
  | (key, given) :: rest => valueTruth plain key given :: entryTruths plain rest

/-- The truth of one entry. A group without members asks for nothing. -/
def valueTruth (plain : String → FilterValue → Truth) (key : String) : FilterValue → Truth
  | .group members =>
      if key = orKey then
        if members.isEmpty then .yes else .any (memberTruths plain members)
      else plain key (.group members)
  | .scalar v => plain key (.scalar v)
  | .list vs => plain key (.list vs)

def memberTruths (plain : String → FilterValue → Truth) : List Filter → List Truth
  | [] => []
  | member :: rest => truth plain member :: memberTruths plain rest

end

variable {plain : String → FilterValue → Truth}

theorem truth_entries (list : List (String × FilterValue)) :
    (entries list).truth plain = .all (list.map fun e => valueTruth plain e.1 e.2) := by
  rw [truth]
  congr 1
  induction list with
  | nil => rfl
  | cons head rest ih => rw [entryTruths, ih, List.map_cons]

theorem memberTruths_eq_map (members : List Filter) :
    memberTruths plain members = members.map (truth plain) := by
  induction members with
  | nil => rfl
  | cons head rest ih => rw [memberTruths, ih, List.map_cons]

/-- A group that has members is their disjunction. -/
theorem valueTruth_group {members : List Filter} (nonempty : members ≠ []) :
    valueTruth plain orKey (.group members) = .any (members.map (truth plain)) := by
  rw [valueTruth, if_pos rfl, if_neg (by simpa using nonempty), memberTruths_eq_map]

theorem valueTruth_of_ne {key : String} (different : key ≠ orKey) (given : FilterValue) :
    valueTruth plain key given = plain key given := by
  cases given with
  | scalar v => rfl
  | list vs => rfl
  | group members => rw [valueTruth, if_neg different]

end Filter

namespace Table

/-- The truth of a plain entry, given that of the conditions on the table. Nothing lies
in an empty list and everything lies outside of it. -/
def entryTruth (t : Table) (atom : Condition → Truth) (key : String) (given : FilterValue) :
    Truth :=
  match t.parseKey key, given with
  | .ok (field, op), .scalar v => atom ⟨t.name, field, op, .value v⟩
  | .ok (_, .isIn), .list [] => .no
  | .ok (_, .notIn), .list [] => .yes
  | .ok (field, op), .list vs => atom ⟨t.name, field, op, .list vs⟩
  | _, _ => .unknown

theorem truth_of_compileEntry (t : Table) (atom : Condition → Truth) {key : String}
    {given : FilterValue} {part : Predicate} (compiled : t.compileEntry key given = .ok part) :
    part.truth atom = t.entryTruth atom key given := by
  obtain ⟨field, op, parsed, forms⟩ := compileEntry_eq_ok compiled
  rcases forms with ⟨takesList, rfl, rfl⟩ | ⟨v, vs, _, rfl, rfl⟩ | ⟨v, _, rfl, rfl⟩
  · cases op with
    | isIn => simp only [entryTruth, parsed]; rfl
    | notIn => simp only [entryTruth, parsed]; rfl
    | eq | not | gt | gte | lt | lte | like => cases takesList
  · simp only [entryTruth, parsed, Predicate.truth]
  · simp only [entryTruth, parsed, Predicate.truth]

/-- A compiled predicate is as true as the filter if this is so for plain entries. -/
theorem truth_of_compile (t : Table) {atom : Condition → Truth}
    {plain : String → FilterValue → Truth}
    (plainly : ∀ key given part, t.compileEntry key given = .ok part →
      part.truth atom = plain key given)
    {f : Filter} {p : Predicate} (compiled : t.compile f = .ok p) :
    p.truth atom = f.truth plain := by
  refine compile_induction (fun f p => p.truth atom = f.truth plain)
    (fun key given part => part.truth atom = Filter.valueTruth plain key given) ?_ ?_ ?_ compiled
  · intro key given part different compiled
    rw [Filter.valueTruth_of_ne different, plainly key given part compiled]
  · intro members parts related _
    rcases members with _ | ⟨member, rest⟩
    · cases related
      rfl
    · have nonempty : parts ≠ [] := by
        rintro rfl
        cases related
      rw [Predicate.truth_disj atom nonempty, map_eq_of_forall₂ related,
        Filter.valueTruth_group (List.cons_ne_nil _ _)]
  · intro list parts related
    rw [Predicate.truth_conj, map_eq_of_forall₂ related, Filter.truth_entries]

/-- A compiled predicate is as true as the filter, whatever is true of the conditions in it. -/
theorem truth_compiled {t : Table} {f : Filter} {p : Predicate} (compiled : t.compile f = .ok p)
    (atom : Condition → Truth) : p.truth atom = f.truth (t.entryTruth atom) :=
  t.truth_of_compile (fun _ _ _ => t.truth_of_compileEntry atom) compiled

end Table

/-! ## Comparisons in SQL -/

/-- What is known of one row: how its columns compare with values, and which of them
are null. -/
structure RowFacts where
  compare : (table field : String) → Operator → Value → Truth
  isNull : (table field : String) → Truth
  isNotNull : (table field : String) → Truth

namespace RowFacts

/-- A column lies in a list if it equals one of its values. -/
def isIn (r : RowFacts) (table field : String) (vs : List Value) : Truth :=
  .any (vs.map (r.compare table field .eq))

/-- A column lies outside of a list if it does not lie in it. -/
def isNotIn (r : RowFacts) (table field : String) (vs : List Value) : Truth :=
  (r.isIn table field vs).not

def condition (r : RowFacts) (c : Condition) : Truth :=
  match c.test with
  | .isNull => r.isNull c.table c.field
  | .isNotNull => r.isNotNull c.table c.field
  | .value op v => r.compare c.table c.field op v
  | .list .notIn vs => r.isNotIn c.table c.field vs
  | .list _ vs => r.isIn c.table c.field vs

/-- The truth of a plain entry of a filter on a table. Being equal to null is read as
being null, and being unequal to it as not being null. -/
def entry (r : RowFacts) (t : Table) (key : String) (given : FilterValue) : Truth :=
  match t.parseKey key, given with
  | .ok (field, .eq), .scalar .null => r.isNull t.name field
  | .ok (field, .not), .scalar .null => r.isNotNull t.name field
  | .ok (field, op), .scalar v => r.compare t.name field op v
  | .ok (_, .isIn), .list [] => .no
  | .ok (_, .notIn), .list [] => .yes
  | .ok (field, .isIn), .list vs => r.isIn t.name field vs
  | .ok (field, .notIn), .list vs => r.isNotIn t.name field vs
  | _, _ => .unknown

theorem truth_of_compileEntry (r : RowFacts) {t : Table} {key : String} {given : FilterValue}
    {part : Predicate} (compiled : t.compileEntry key given = .ok part) :
    part.truth r.condition = r.entry t key given := by
  obtain ⟨field, op, parsed, forms⟩ := Table.compileEntry_eq_ok compiled
  rcases forms with ⟨takesList, rfl, rfl⟩ | ⟨v, vs, takesList, rfl, rfl⟩ | ⟨v, _, rfl, rfl⟩
  · cases op with
    | isIn => simp only [entry, parsed]; rfl
    | notIn => simp only [entry, parsed]; rfl
    | eq | not | gt | gte | lt | lte | like => cases takesList
  · cases op with
    | isIn => simp only [entry, parsed]; rfl
    | notIn => simp only [entry, parsed]; rfl
    | eq | not | gt | gte | lt | lte | like => cases takesList
  · cases op <;> cases v <;> simp only [entry, parsed] <;> rfl

end RowFacts

/-- Compilation keeps the meaning of a filter, under every assignment of truth values to
conditions and for everything that SQL may find about a row. -/
theorem truth_eq_of_compile {t : Table} {f : Filter} {p : Predicate}
    (compiled : t.compile f = .ok p) :
    (∀ atom : Condition → Truth, p.truth atom = f.truth (t.entryTruth atom)) ∧
      ∀ r : RowFacts, p.truth r.condition = f.truth (r.entry t) :=
  ⟨fun atom => t.truth_of_compile (fun _ _ _ => t.truth_of_compileEntry atom) compiled,
    fun r => t.truth_of_compile (fun _ _ _ => r.truth_of_compileEntry) compiled⟩

/-! ## A nested filter -/

def items : Table where
  name := "items"
  columns :=
    [{ name := "id", declared := "INTEGER", primaryKey := true },
      { name := "status", declared := "TEXT" }, { name := "price", declared := "REAL" }]

/-- Items with a status that, by the inner group, are the second one or have no price. The
lists and the last group are empty. -/
def nestedFilter : Filter :=
  .entries
    [("status__not", .scalar .null),
      ("or__", .group
        [.entries [("id__in", .list [])],
          .entries
            [("or__", .group
              [.entries [("id", .scalar (.int 2))], .entries [("price", .scalar .null)]]),
              ("id__notin", .list [])]]),
      ("or__", .group [])]

def nestedPredicate : Predicate :=
  .all
    [.condition ⟨"items", "status", .not, .value .null⟩,
      .any
        [.condition ⟨"items", "id", .eq, .value (.int 2)⟩,
          .condition ⟨"items", "price", .eq, .value .null⟩]]

theorem truth_eq_of_compile_nestedFilter :
    items.compile nestedFilter = .ok nestedPredicate ∧
      (∀ atom : Condition → Truth,
        nestedPredicate.truth atom = nestedFilter.truth (items.entryTruth atom)) ∧
      ∀ r : RowFacts, nestedPredicate.truth r.condition = nestedFilter.truth (r.entry items) :=
  ⟨rfl, truth_eq_of_compile rfl⟩

end TableAccess
