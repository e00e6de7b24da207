import Mathlib.Data.List.Forall2
import TableAccess.Filter.Document

/-!
# Documents that are filters

Which documents are filters, and what they say as filters, told without reading them: every member
of an object is one entry, under its own key and in its own place. Reading accepts exactly these
documents and gives what they say, however deep their groups are nested. Whatever else a document
is, the refusal is one for the form of the request.
-/

namespace TableAccess

/-! ## The grammar -/

namespace Json

mutual

inductive IsFilter : Json → Prop where
  | object {members : List (String × Json)} (each : ∀ member ∈ members, IsEntry member) :
      IsFilter (.object members)

/-- A member is an entry if it is a scalar or an array of scalars, or, under the key of groups, an
array of filters. -/
inductive IsEntry : String × Json → Prop where
  | scalar {key : String} {value : Json} (plain : key ≠ orKey) (scalar : value.isScalar = true) :
      IsEntry (key, value)
  | list {key : String} {items : List Json} (plain : key ≠ orKey)
      (scalars : ∀ item ∈ items, item.isScalar = true) : IsEntry (key, .array items)
  | group {items : List Json} (each : ∀ item ∈ items, IsFilter item) :
      IsEntry (orKey, .array items)

end

mutual

/-- What a document says as a filter: one entry for each of its members, in their order. -/
inductive Says : Json → Filter → Prop where
  | object {members : List (String × Json)} {list : List (String × FilterValue)}
      (each : List.Forall₂ MemberSays members list) : Says (.object members) (.entries list)

/-- What a member says as an entry under the same key: a scalar its value, an array of scalars the
values of its items, and an array of filters what each of them says. -/
inductive MemberSays : String × Json → String × FilterValue → Prop where
  | scalar {key : String} {value : Json} (plain : key ≠ orKey) (scalar : value.isScalar = true) :
      MemberSays (key, value) (key, .scalar (Value.ofJson value))
  | list {key : String} {items : List Json} (plain : key ≠ orKey)
      (scalars : ∀ item ∈ items, item.isScalar = true) :
      MemberSays (key, .array items) (key, .list (items.map Value.ofJson))
  | group {items : List Json} {members : List Filter} (each : List.Forall₂ Says items members) :
      MemberSays (orKey, .array items) (orKey, .group members)

end

theorem isFilter_object_iff {members : List (String × Json)} :
    IsFilter (.object members) ↔ ∀ member ∈ members, IsEntry member :=
  ⟨fun ⟨each⟩ => each, .object⟩

theorem says_object_iff {members : List (String × Json)} {f : Filter} :
    Says (.object members) f ↔
      ∃ list, List.Forall₂ MemberSays members list ∧ .entries list = f := by
  constructor
  · rintro ⟨each⟩
    exact ⟨_, each, rfl⟩
  · rintro ⟨list, each, rfl⟩
    exact .object each

theorem isEntry_group_iff {items : List Json} :
    IsEntry (orKey, .array items) ↔ ∀ item ∈ items, IsFilter item := by
  constructor
  · intro held
    cases held with
    | scalar plain => exact absurd rfl plain
    | list plain => exact absurd rfl plain
    | group each => exact each
  · exact .group

theorem memberSays_group_iff {items : List Json} {entry : FilterValue} :
    MemberSays (orKey, .array items) (orKey, entry) ↔
      ∃ members, List.Forall₂ Says items members ∧ .group members = entry := by
  constructor
  · intro said
    cases said with
    | scalar plain => exact absurd rfl plain
    | list plain => exact absurd rfl plain
    | group each => exact ⟨_, each, rfl⟩
  · rintro ⟨members, each, rfl⟩
    exact .group each

end Json

/-! ## Outcomes that settle a question -/

/-- An outcome settles whether something is acceptable and what it means: it is the only meaning,
or else a refusal for the form of the request. -/
inductive Settles {α : Type} (acceptable : Prop) (means : α → Prop) : Except Error α → Prop where
  | ok {a : α} (accepted : acceptable) (only : ∀ b, means b ↔ b = a) :
      Settles acceptable means (.ok a)
  | error (message : String) (refused : ¬ acceptable) (nothing : ∀ b, ¬ means b) :
      Settles acceptable means (.error (.invalidRequest message))

namespace Settles

variable {α β γ : Type} {acceptable other both : Prop} {means : α → Prop} {further : β → Prop}
  {whole : γ → Prop} {r : Except Error α} {next : Except Error β}

theorem map {change : α → γ} (settled : Settles acceptable means r) (same : both ↔ acceptable)
    (changed : ∀ c, whole c ↔ ∃ a, means a ∧ change a = c) :
    Settles both whole (r >>= fun a => pure (change a)) := by
  cases settled with
  | @ok a accepted only =>
      refine .ok (same.mpr accepted) fun c => ?_
      rw [changed]
      constructor
      · rintro ⟨b, meant, rfl⟩
        rw [(only b).mp meant]
      · rintro rfl
        exact ⟨a, (only a).mpr rfl, rfl⟩
  | error message refused nothing =>
      refine .error message (fun held => refused (same.mp held)) fun c meant => ?_
      obtain ⟨b, held, _⟩ := (changed c).mp meant
      exact nothing b held

/-- What consists of two parts is settled once both parts are. -/
theorem combine {combined : α → β → γ} (first : Settles acceptable means r)
    (second : Settles other further next) (parts : both ↔ acceptable ∧ other)
    (meant : ∀ c, whole c ↔ ∃ a b, means a ∧ further b ∧ combined a b = c) :
    Settles both whole (r >>= fun a => next >>= fun b => pure (combined a b)) := by
  cases first with
  | @ok a accepted only =>
      refine second.map (parts.trans (and_iff_right accepted)) fun c => ?_
      rw [meant]
      constructor
      · rintro ⟨a', b, held, later, same⟩
        cases (only a').mp held
        exact ⟨b, later, same⟩
      · rintro ⟨b, later, same⟩
        exact ⟨a, b, (only a).mpr rfl, later, same⟩
  | error message refused nothing =>
      refine .error message (fun held => refused (parts.mp held).1) fun c held => ?_
      obtain ⟨a, _, here, _⟩ := (meant c).mp held
      exact nothing a here

end Settles

/-! ## Reading -/

namespace Filter

open Json (IsFilter IsEntry Says MemberSays)

/-- Under a key of its own a scalar is an entry, which says the value of the scalar. -/
theorem settles_scalar {key : String} {value : Json} (plain : key ≠ orKey)
    (scalar : value.isScalar = true) :
    Settles (IsEntry (key, value)) (fun entry => MemberSays (key, value) (key, entry))
      (.ok (.scalar (Value.ofJson value))) := by
  refine .ok (.scalar plain scalar) fun entry => ⟨fun said => ?_, ?_⟩
  · cases said with
    | scalar => rfl
    | list => cases scalar
    | group => exact absurd rfl plain
  · rintro rfl
    exact .scalar plain scalar

/-- Under a key of its own an array is an entry if there are only scalars in it. -/
theorem settles_list {key : String} (items : List Json) (plain : key ≠ orKey) :
    Settles (IsEntry (key, .array items))
      (fun entry => MemberSays (key, .array items) (key, entry))
      (if items.all Json.isScalar then pure (.list (items.map Value.ofJson))
        else throw (listNotScalar key)) := by
  split
  · rename_i all
    have scalars := List.all_eq_true.mp all
    refine .ok (.list plain scalars) fun entry => ⟨fun said => ?_, ?_⟩
    · cases said with
      | scalar _ scalar => cases scalar
      | list => rfl
      | group => exact absurd rfl plain
    · rintro rfl
      exact .list plain scalars
  · rename_i other
    refine .error _ (fun held => ?_) fun entry said => ?_
    · cases held with
      | scalar _ scalar => cases scalar
      | list _ scalars => exact other (List.all_eq_true.mpr scalars)
      | group => exact plain rfl
    · cases said with
      | scalar _ scalar => cases scalar
      | list _ scalars => exact other (List.all_eq_true.mpr scalars)
      | group => exact plain rfl

/-- An object is no entry, whatever its key. -/
theorem settles_object {key : String} (members : List (String × Json)) (message : String) :
    Settles (IsEntry (key, .object members))
      (fun entry => MemberSays (key, .object members) (key, entry))
      (.error (.invalidRequest message)) := by
  refine .error message (fun held => ?_) fun entry said => ?_
  · cases held with
    | scalar _ scalar => cases scalar
  · cases said with
    | scalar _ scalar => cases scalar

/-- Under the key of groups only an array can be an entry. -/
theorem settles_noArray {value : Json} (other : ∀ items, value ≠ .array items) :
    Settles (IsEntry (orKey, value)) (fun entry => MemberSays (orKey, value) (orKey, entry))
      (.error groupNotAnArray) := by
  refine .error _ (fun held => ?_) fun entry said => ?_
  · cases held with
    | scalar plain => exact plain rfl
    | list plain => exact plain rfl
    | group => exact other _ rfl
  · cases said with
    | scalar plain => exact plain rfl
    | list plain => exact plain rfl
    | group => exact other _ rfl

mutual

theorem settles_ofJson (document : Json) :
    Settles document.IsFilter document.Says (ofJson document) := by
  cases document with
  | object members =>
      rw [ofJson]
      exact (settles_entriesOfMembers members).map Json.isFilter_object_iff
        fun f => Json.says_object_iff
  | null | bool flag | integer n | float x | text s | array items =>
      rw [ofJson]
      · exact .error _ nofun nofun
      · exact nofun

theorem settles_entriesOfMembers (members : List (String × Json)) :
    Settles (∀ member ∈ members, IsEntry member) (List.Forall₂ MemberSays members)
      (entriesOfMembers members) := by
  cases members with
  | nil =>
      rw [entriesOfMembers]
      exact .ok (List.forall_mem_nil _) fun list => List.forall₂_nil_left_iff
  | cons member rest =>
      obtain ⟨key, value⟩ := member
      rw [entriesOfMembers]
      refine (settles_entryOfMember key value).combine (settles_entriesOfMembers rest)
        List.forall_mem_cons fun list => ?_
      rw [List.forall₂_cons_left_iff]
      constructor
      · rintro ⟨⟨key', entry⟩, later, said, others, rfl⟩
        have same : key' = key := by cases said <;> rfl
        subst same
        exact ⟨entry, later, said, others, rfl⟩
      · rintro ⟨entry, later, said, others, rfl⟩
        exact ⟨(key, entry), later, said, others, rfl⟩

theorem settles_entryOfMember (key : String) (value : Json) :
    Settles (IsEntry (key, value)) (fun entry => MemberSays (key, value) (key, entry))
      (entryOfMember key value) := by
  by_cases group : key = orKey
  · subst group
    cases value with
    | array items =>
        rw [entryOfMember, if_pos rfl]
        exact (settles_groupOfItems items).map Json.isEntry_group_iff
          fun entry => Json.memberSays_group_iff
    | object members =>
        rw [entryOfMember, if_pos rfl]
        exact settles_object members _
    | null | bool flag | integer n | float x | text s =>
        rw [entryOfMember, if_pos rfl]
        · exact settles_noArray nofun
        · exact nofun
        · exact nofun
  · cases value with
    | array items =>
        rw [entryOfMember, if_neg group]
        exact settles_list items group
    | object members =>
        rw [entryOfMember, if_neg group]
        exact settles_object members _
    | null | bool flag | integer n | float x | text s =>
        rw [entryOfMember, if_neg group]
        · exact settles_scalar group rfl
        · exact nofun
        · exact nofun

theorem settles_groupOfItems (items : List Json) :
    Settles (∀ item ∈ items, IsFilter item) (List.Forall₂ Says items) (groupOfItems items) := by
  cases items with
  | nil =>
      rw [groupOfItems]
      exact .ok (List.forall_mem_nil _) fun list => List.forall₂_nil_left_iff
  | cons item rest =>
      rw [groupOfItems]
      refine (settles_ofJson item).combine (settles_groupOfItems rest) List.forall_mem_cons
        fun list => ?_
      rw [List.forall₂_cons_left_iff]
      constructor
      · rintro ⟨member, later, said, others, rfl⟩
        exact ⟨member, later, said, others, rfl⟩
      · rintro ⟨member, later, said, others, rfl⟩
        exact ⟨member, later, said, others, rfl⟩

end

/-- A document is read exactly if it is a filter by the grammar. What is read is what the document
says, which is one filter, and any other document is refused for its form. -/
theorem ofJson_reads_documents (document : Json) :
    ((∃ f, ofJson document = .ok f) ↔ document.IsFilter) ∧
      (∀ f, ofJson document = .ok f ↔ document.Says f) ∧
      ((∃ message, ofJson document = .error (.invalidRequest message)) ↔ ¬ document.IsFilter) := by
  have settled := settles_ofJson document
  cases read : ofJson document with
  | ok f =>
      rw [read] at settled
      cases settled with
      | ok accepted only =>
          refine ⟨iff_of_true ⟨f, rfl⟩ accepted, fun g => ?_,
            iff_of_false nofun (not_not.mpr accepted)⟩
          rw [only]
          exact ⟨fun same => (Except.ok.inj same).symm, fun same => congrArg _ same.symm⟩
  | error e =>
      rw [read] at settled
      cases settled with
      | error message refused nothing =>
          exact ⟨iff_of_false nofun refused, fun g => iff_of_false nofun (nothing g),
            iff_of_true ⟨message, rfl⟩ refused⟩

/-- An array of objects is a group under one key, and nothing under any other. -/
example : ofJson (.object [("or__", .array [.object []])]) =
      .ok (.entries [("or__", .group [.entries []])]) ∧
    ofJson (.object [("tags", .array [.object []])]) = .error (listNotScalar "tags") :=
  ⟨rfl, rfl⟩

end Filter

end TableAccess
