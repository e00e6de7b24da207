import TableAccess.Predicate.Written
import TableAccess.Proofs.Sql.Filling

/-!
# Placeholders of predicates

A predicate binds the values of its conditions from left to right: one for a comparison, the
elements in their order for a list, and none for a question about null. Its text has one
placeholder for each of them, and each stands behind the column and the operator of its
condition.
-/

namespace TableAccess

open Sql (Filled Fragment Writes)

/-- The values of a condition, in the order in which they are bound. -/
def Condition.values (c : Condition) : List Value :=
  match c.operand, c.operator with
  | .value .null, .eq => []
  | .value .null, .not => []
  | .value v, _ => [v]
  | .list vs, _ => vs

def Condition.filled (c : Condition) : Filled Value :=
  Filled.column c.table c.field ++
    match c.operand, c.operator with
    | .value .null, .eq => Filled.text " IS NULL"
    | .value .null, .not => Filled.text " IS NOT NULL"
    | .value v, op => Filled.text (" " ++ op.symbol ++ " ") ++ [.inr v]
    | .list vs, op =>
        Filled.text (" " ++ op.symbol ++ " (") ++ Filled.joined ", " (vs.map fun v => [.inr v])
          ++ Filled.text ")"

namespace Predicate

mutual

/-- The values of the conditions of a predicate, from left to right. -/
def values : Predicate → List Value
  | condition c => c.values
  | all parts => partValues parts
  | any parts => partValues parts
  | _ => []

def partValues : List Predicate → List Value
  | [] => []
  | part :: rest => part.values ++ partValues rest

end

mutual

def filled : Predicate → Filled Value
  | unrestricted => Filled.text "1 = 1"
  | const outcome => Filled.text (if outcome then "1 = 1" else "1 = 0")
  | condition c => c.filled
  | all parts => Filled.text "(" ++ Filled.joined " AND " (partsFilled parts) ++ Filled.text ")"
  | any parts => Filled.text "(" ++ Filled.joined " OR " (partsFilled parts) ++ Filled.text ")"

def partsFilled : List Predicate → List (Filled Value)
  | [] => []
  | part :: rest => part.filled :: partsFilled rest

end

theorem partValues_eq_flatMap (parts : List Predicate) :
    partValues parts = parts.flatMap values := by
  induction parts with
  | nil => rfl
  | cons part rest ih => rw [partValues, ih, List.flatMap_cons]

theorem partsFilled_eq_map (parts : List Predicate) : partsFilled parts = parts.map filled := by
  induction parts with
  | nil => rfl
  | cons part rest ih => rw [partsFilled, ih, List.map_cons]

theorem partFragments_eq_map (parts : List Predicate) :
    partFragments parts = parts.map fragments := by
  induction parts with
  | nil => rfl
  | cons part rest ih => rw [partFragments, ih, List.map_cons]

/-- Induction on predicates: what passes from the parts of a combination to the combination
holds of every predicate. -/
theorem nested_induction {motive : Predicate → Prop} (unrestricted : motive .unrestricted)
    (const : ∀ outcome, motive (.const outcome)) (condition : ∀ c, motive (.condition c))
    (all : ∀ parts, (∀ part ∈ parts, motive part) → motive (.all parts))
    (any : ∀ parts, (∀ part ∈ parts, motive part) → motive (.any parts))
    (p : Predicate) : motive p := by
  refine @Predicate.rec motive (fun parts => ∀ part ∈ parts, motive part)
    unrestricted const condition all any ?none ?more p
  case none => exact fun _ found => nomatch found
  case more => exact fun _ _ first later => List.forall_mem_cons.mpr ⟨first, later⟩

end Predicate

namespace Condition

/-- The symbol of an operator has neither quotes nor question marks. -/
theorem writes_symbol (op : Operator) {after : String} (known : after = " " ∨ after = " (") :
    Writes (id : Value → Value) [.verbatim (" " ++ op.symbol ++ after)] []
      (Filled.text (" " ++ op.symbol ++ after)) := by
  rcases known with rfl | rfl <;> cases op <;> exact .verbatim _

theorem writes_value (table field : String) (op : Operator) (v : Value) :
    Writes id [.column table field, .verbatim (" " ++ op.symbol ++ " "), .slot v] [v]
      (Filled.column table field ++ (Filled.text (" " ++ op.symbol ++ " ") ++ [.inr v])) :=
  (Writes.column table field).append ((writes_symbol op (.inl rfl)).append (Writes.slot v))

theorem writes_list (table field : String) (op : Operator) (vs : List Value) :
    Writes id
      (.column table field :: .verbatim (" " ++ op.symbol ++ " (") ::
        (Fragment.separated ", " (vs.map fun v => [.slot v]) ++ [.verbatim ")"]))
      vs
      (Filled.column table field ++ (Filled.text (" " ++ op.symbol ++ " (")
        ++ Filled.joined ", " (vs.map fun v => [.inr v]) ++ Filled.text ")")) := by
  have elements : Writes id (Fragment.separated ", " (vs.map fun v => [.slot v])) (vs.map id)
      (Filled.joined ", " (vs.map fun v => [.inr v])) :=
    .slots (.verbatim ", ") vs
  have whole := (Writes.column table field).append
    ((writes_symbol op (.inr rfl)).append (elements.append (.verbatim ")")))
  simpa using whole

/-- A condition binds its values, each behind its column and its operator. -/
theorem writes (c : Condition) : Writes id c.fragments c.values c.filled := by
  obtain ⟨table, field, op, operand⟩ := c
  cases operand with
  | list vs => exact writes_list table field op vs
  | value v =>
      cases v with
      | null =>
          cases op with
          | eq => exact (Writes.column table field).append (.verbatim " IS NULL")
          | not => exact (Writes.column table field).append (.verbatim " IS NOT NULL")
          | _ => exact writes_value table field _ .null
      | _ => exact writes_value table field op _

end Condition

namespace Predicate

/-- A combination binds what its parts bind, one after the other. -/
theorem writes_group {separator : String} {parts : List Predicate}
    (between : Writes (id : Value → Value) [.verbatim separator] [] (Filled.text separator))
    (each : ∀ part ∈ parts, Writes id part.fragments part.values part.filled) :
    Writes id (.verbatim "(" :: (Fragment.separated separator (partFragments parts)
        ++ [.verbatim ")"]))
      (partValues parts)
      (Filled.text "(" ++ Filled.joined separator (partsFilled parts) ++ Filled.text ")") := by
  rw [partFragments_eq_map, partValues_eq_flatMap, partsFilled_eq_map]
  have whole := (Writes.verbatim "(").append
    ((Writes.separated between each).append (.verbatim ")"))
  simpa using whole

/-- A predicate binds the values of its conditions from left to right, each in its place. -/
theorem writes (p : Predicate) : Writes id p.fragments p.values p.filled := by
  induction p using nested_induction with
  | unrestricted => exact .verbatim "1 = 1"
  | const outcome =>
      cases outcome with
      | true => exact .verbatim "1 = 1"
      | false => exact .verbatim "1 = 0"
  | condition c => exact c.writes
  | all parts ih => exact writes_group (.verbatim " AND ") ih
  | any parts ih => exact writes_group (.verbatim " OR ") ih

/-- The bound values are those of the conditions, from left to right. -/
theorem params_eq_values (p : Predicate) : p.params = p.values := by
  have bound := p.writes.bound
  rwa [List.map_id] at bound

end Predicate

end TableAccess
