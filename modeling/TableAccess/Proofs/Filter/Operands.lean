import Mathlib.Data.List.Flatten
import TableAccess.Filter.Document
import TableAccess.Proofs.Predicate.Compilation
import TableAccess.Proofs.Predicate.Folding
import TableAccess.Proofs.Predicate.Placeholders

/-!
# Operands of filters

What a compiled filter binds is found among the values of its entries, in their order: comparisons
with null bind nothing, and what is folded away is not bound either. The values of a filter that was
read from a document are those of the scalars in the document.
-/

namespace TableAccess

/-! ## Values of filters and scalars of documents -/

mutual

/-- The values of a filter, in the order in which they were written. -/
def Filter.operands : Filter → List Value
  | .entries list => entryOperands list

def entryOperands : List (String × FilterValue) → List Value
  | [] => []
  | (_, given) :: rest => given.operands ++ entryOperands rest

def FilterValue.operands : FilterValue → List Value
  | .scalar v => [v]
  | .list vs => vs
  | .group members => memberOperands members

def memberOperands : List Filter → List Value
  | [] => []
  | member :: rest => member.operands ++ memberOperands rest

end

namespace Json

mutual

/-- The scalars of a document, in the order in which they stand in it. -/
def scalars : Json → List Json
  | .array items => itemScalars items
  | .object members => memberScalars members
  | value => [value]

def itemScalars : List Json → List Json
  | [] => []
  | item :: rest => item.scalars ++ itemScalars rest

def memberScalars : List (String × Json) → List Json
  | [] => []
  | (_, value) :: rest => value.scalars ++ memberScalars rest

end

theorem scalars_of_isScalar {value : Json} (scalar : value.isScalar = true) :
    value.scalars = [value] := by
  cases value with
  | array items => cases scalar
  | object members => cases scalar
  | _ => rfl

theorem itemScalars_of_isScalar {items : List Json}
    (scalars : ∀ item ∈ items, item.isScalar = true) : itemScalars items = items := by
  induction items with
  | nil => rfl
  | cons item rest ih =>
      obtain ⟨first, later⟩ := List.forall_mem_cons.mp scalars
      rw [itemScalars, scalars_of_isScalar first, ih later]
      rfl

end Json

/-! ## Reading -/

namespace Filter

mutual

/-- The values of a filter are those of the scalars of the document that it was read from. -/
theorem operands_ofJson {document : Json} {f : Filter} (read : ofJson document = .ok f) :
    f.operands = document.scalars.map Value.ofJson := by
  cases document with
  | object members =>
      rw [ofJson] at read
      obtain ⟨list, entries, same⟩ := bind_eq_ok_iff.mp read
      cases pure_eq_ok_iff.mp same
      exact operands_entriesOfMembers entries
  | null | bool flag | integer n | float x | text s | array items =>
      rw [ofJson] at read
      · cases read
      · exact nofun

theorem operands_entriesOfMembers {members : List (String × Json)}
    {list : List (String × FilterValue)} (read : entriesOfMembers members = .ok list) :
    entryOperands list = (Json.memberScalars members).map Value.ofJson := by
  cases members with
  | nil =>
      cases read
      rfl
  | cons member rest =>
      obtain ⟨key, value⟩ := member
      rw [entriesOfMembers] at read
      obtain ⟨given, first, read⟩ := bind_eq_ok_iff.mp read
      obtain ⟨others, later, same⟩ := bind_eq_ok_iff.mp read
      cases pure_eq_ok_iff.mp same
      rw [entryOperands, Json.memberScalars, List.map_append, operands_entryOfMember first,
        operands_entriesOfMembers later]

theorem operands_entryOfMember {key : String} {value : Json} {given : FilterValue}
    (read : entryOfMember key value = .ok given) :
    given.operands = value.scalars.map Value.ofJson := by
  cases value with
  | array items =>
      rw [entryOfMember] at read
      split at read
      · obtain ⟨members, group, same⟩ := bind_eq_ok_iff.mp read
        cases pure_eq_ok_iff.mp same
        exact operands_groupOfItems group
      · split at read
        · rename_i all
          cases pure_eq_ok_iff.mp read
          rw [Json.scalars, Json.itemScalars_of_isScalar (List.all_eq_true.mp all)]
          rfl
        · cases read
  | object members =>
      rw [entryOfMember] at read
      split at read <;> cases read
  | null | bool flag | integer n | float x | text s =>
      rw [entryOfMember] at read
      · split at read
        · cases read
        · cases pure_eq_ok_iff.mp read
          rfl
      · exact nofun
      · exact nofun

theorem operands_groupOfItems {items : List Json} {members : List Filter}
    (read : groupOfItems items = .ok members) :
    memberOperands members = (Json.itemScalars items).map Value.ofJson := by
  cases items with
  | nil =>
      cases read
      rfl
  | cons item rest =>
      rw [groupOfItems] at read
      obtain ⟨member, first, read⟩ := bind_eq_ok_iff.mp read
      obtain ⟨others, later, same⟩ := bind_eq_ok_iff.mp read
      cases pure_eq_ok_iff.mp same
      rw [memberOperands, Json.itemScalars, List.map_append, operands_ofJson first,
        operands_groupOfItems later]

end

end Filter

/-! ## Compiling -/

namespace Predicate

theorem values_sublist_of_filter {kept : Predicate → Bool} {parts chosen : List Predicate}
    (filtered : parts.filter kept = chosen) :
    (partValues chosen).Sublist (partValues parts) := by
  rw [partValues_eq_flatMap, partValues_eq_flatMap, ← filtered]
  exact List.filter_sublist.flatMap values

/-- A folded conjunction has values of its parts. -/
theorem values_conj_sublist (parts : List Predicate) :
    (conj parts).values.Sublist (partValues parts) := by
  apply conj_cases (motive := fun p => p.values.Sublist (partValues parts)) parts
  · exact fun _ => List.nil_sublist _
  · exact fun _ => List.nil_sublist _
  · exact fun _ _ => List.nil_sublist _
  · intro part _ filtered
    have kept := values_sublist_of_filter filtered
    rwa [partValues, partValues, List.append_nil] at kept
  · intro kept _ filtered _
    exact values_sublist_of_filter filtered

/-- A folded disjunction has values of its parts. -/
theorem values_disj_sublist (parts : List Predicate) :
    (disj parts).values.Sublist (partValues parts) := by
  apply disj_cases (motive := fun p => p.values.Sublist (partValues parts)) parts
  · exact fun _ => List.nil_sublist _
  · exact fun _ => List.nil_sublist _
  · exact fun _ _ => List.nil_sublist _
  · intro part _ filtered
    have kept := values_sublist_of_filter filtered
    rwa [partValues, partValues, List.append_nil] at kept
  · intro kept _ filtered _
    exact values_sublist_of_filter filtered

end Predicate

namespace Condition

variable {table field : String} {op : Operator} {v : Value}

theorem values_of_ne_null (something : v ≠ .null) :
    values ⟨table, field, op, .value v⟩ = [v] := by
  cases v with
  | null => exact absurd rfl something
  | _ => rfl

theorem values_sublist : (values ⟨table, field, op, .value v⟩).Sublist [v] := by
  cases v with
  | null =>
      cases op with
      | eq | not => exact List.nil_sublist _
      | _ => exact List.Sublist.refl _
  | _ => exact List.Sublist.refl _

end Condition

namespace Table

variable {t : Table} {key : String} {given : FilterValue}

theorem compileEntry_values {part : Predicate} (compiled : t.compileEntry key given = .ok part) :
    part.values.Sublist given.operands := by
  obtain ⟨field, op, _, ⟨_, rfl, rfl⟩ | ⟨v, vs, _, rfl, rfl⟩ | ⟨v, _, rfl, rfl⟩⟩ :=
    compileEntry_eq_ok compiled
  · exact List.nil_sublist _
  · exact List.Sublist.refl _
  · exact Condition.values_sublist

/-- A compiled filter binds values of the filter, in their order. -/
theorem compile_values {f : Filter} {p : Predicate} (compiled : t.compile f = .ok p) :
    p.values.Sublist f.operands := by
  refine compile_induction (fun f p => p.values.Sublist f.operands)
    (fun _ given part => part.values.Sublist given.operands) ?plain ?group ?filter compiled
  case plain => exact fun _ _ _ _ compiled => compileEntry_values compiled
  case group =>
    intro members parts each restricting
    clear restricting
    refine (Predicate.values_disj_sublist parts).trans ?_
    rw [FilterValue.operands]
    induction each with
    | nil => exact List.nil_sublist _
    | cons first _ ih => exact first.append ih
  case filter =>
    intro list parts each
    refine (Predicate.values_conj_sublist parts).trans ?_
    rw [Filter.operands]
    induction each with
    | nil => exact List.nil_sublist _
    | cons first _ ih => exact first.append ih

end Table

end TableAccess
