/-!
# Outcomes of checks

A chain of checks succeeds if every check does, and otherwise ends in the error of
the first one that fails. What may go wrong can be listed apart from the chain, in
the order of the checks; an outcome answers such a list if it is the head of it.
-/

namespace TableAccess

variable {ε α β : Type}

/-- A chain of two checks succeeds exactly if both do. -/
theorem bind_eq_ok_iff {r : Except ε α} {next : α → Except ε β} {b : β} :
    (r >>= next) = .ok b ↔ ∃ a, r = .ok a ∧ next a = .ok b := by
  constructor
  · intro ended
    cases r with
    | ok a => exact ⟨a, rfl, ended⟩
    | error e => cases ended
  · rintro ⟨a, rfl, ended⟩
    exact ended

theorem pure_eq_ok_iff {a b : α} : (pure a : Except ε α) = .ok b ↔ a = b := by
  constructor
  · intro same
    cases same
    rfl
  · rintro rfl
    rfl

/-- A chain that begins with a refusal succeeds exactly if there is no cause to refuse and the
rest succeeds. -/
theorem refuse_eq_ok_iff {cause : Prop} [Decidable cause] {e : ε} {next : Unit → Except ε β}
    {b : β} :
    (if cause then throw e >>= next else next ()) = .ok b ↔ ¬ cause ∧ next () = .ok b := by
  by_cases given : cause
  · rw [if_pos given]
    exact iff_of_false (fun ended => nomatch ended) fun both => both.1 given
  · rw [if_neg given]
    exact ⟨fun ended => ⟨given, ended⟩, fun both => both.2⟩

/-- Chains that go on alike from every value of their first check are the same. -/
theorem bind_congr_of_ok {r : Except ε α} {next other : α → Except ε β}
    (same : ∀ a, r = .ok a → next a = other a) : (r >>= next) = (r >>= other) := by
  cases r with
  | ok a => exact same a rfl
  | error e => rfl

/-- Another name for the error changes nothing about the value. -/
theorem mapError_eq_ok_iff {δ : Type} {r : Except ε α} {rename : ε → δ} {a : α} :
    r.mapError rename = .ok a ↔ r = .ok a := by
  cases r with
  | ok b => exact ⟨fun same => congrArg Except.ok (Except.ok.inj same), congrArg _⟩
  | error e => exact iff_of_false nofun nofun

theorem mapError_eq_error_iff {δ : Type} {r : Except ε α} {rename : ε → δ} {d : δ} :
    r.mapError rename = .error d ↔ ∃ e, r = .error e ∧ rename e = d := by
  cases r with
  | ok b => exact iff_of_false nofun nofun
  | error e =>
      constructor
      · intro same
        exact ⟨e, rfl, Except.error.inj same⟩
      · rintro ⟨_, ended, rfl⟩
        cases ended
        rfl

theorem mapError_bind {δ : Type} (rename : ε → δ) (r : Except ε α) (next : α → Except ε β) :
    (r >>= next).mapError rename = r.mapError rename >>= fun a => (next a).mapError rename := by
  cases r <;> rfl

theorem map_bind {γ : Type} (change : β → γ) (r : Except ε α) (next : α → Except ε β) :
    (r >>= next).map change = r >>= fun a => (next a).map change := by
  cases r <;> rfl

theorem toOption_map (f : α → β) (r : Except ε α) : (r.map f).toOption = r.toOption.map f := by
  cases r with
  | ok a => rfl
  | error e => rfl

theorem mapError_forM {δ : Type} (rename : ε → δ) (list : List α) (check : α → Except ε Unit) :
    (list.forM check).mapError rename = list.forM fun a => (check a).mapError rename := by
  induction list with
  | nil => rfl
  | cons head rest ih =>
      calc ((head :: rest).forM check).mapError rename
          = (check head).mapError rename >>= fun _ => (rest.forM check).mapError rename :=
            mapError_bind rename (check head) fun _ => rest.forM check
        _ = (head :: rest).forM fun a => (check a).mapError rename := by rw [ih]; rfl

/-- Checks of all members of a list succeed only if each of them does. -/
theorem forM_eq_ok {list : List α} {check : α → Except ε Unit} (passed : list.forM check = .ok ()) :
    ∀ a ∈ list, check a = .ok () := by
  induction list with
  | nil => exact List.forall_mem_nil _
  | cons head rest ih =>
      obtain ⟨_, first, later⟩ := bind_eq_ok_iff.mp passed
      exact List.forall_mem_cons.mpr ⟨first, ih later⟩

theorem forM_eq_ok_iff {list : List α} {check : α → Except ε Unit} :
    list.forM check = .ok () ↔ ∀ a ∈ list, check a = .ok () := by
  refine ⟨forM_eq_ok, fun each => ?_⟩
  induction list with
  | nil => rfl
  | cons head rest ih =>
      obtain ⟨first, later⟩ := List.forall_mem_cons.mp each
      exact bind_eq_ok_iff.mpr ⟨(), first, ih later⟩

/-- A check that gives every member of a list its value gives the list all of them. -/
theorem mapM_eq_ok_map {list : List α} {f : α → Except ε β} {g : α → β}
    (each : ∀ a ∈ list, f a = .ok (g a)) : list.mapM f = .ok (list.map g) := by
  induction list with
  | nil => rfl
  | cons head rest ih =>
      obtain ⟨first, later⟩ := List.forall_mem_cons.mp each
      rw [List.mapM_cons, first, ih later]
      rfl

/-- What comes of all members of a list comes of one of them each. -/
theorem of_mapM_eq_ok {list : List α} {f : α → Except ε β} {bs : List β}
    (ended : list.mapM f = .ok bs) : ∀ b ∈ bs, ∃ a ∈ list, f a = .ok b := by
  induction list generalizing bs with
  | nil =>
      cases ended
      exact List.forall_mem_nil _
  | cons head rest ih =>
      rw [List.mapM_cons] at ended
      obtain ⟨b, first, others⟩ := bind_eq_ok_iff.mp ended
      obtain ⟨later, next, whole⟩ := bind_eq_ok_iff.mp others
      cases whole
      refine List.forall_mem_cons.mpr ⟨⟨head, List.mem_cons_self, first⟩, fun b member => ?_⟩
      obtain ⟨a, listed, found⟩ := ih next b member
      exact ⟨a, List.mem_cons_of_mem _ listed, found⟩

/-- An outcome answers a list of complaints: without complaints there is a value, and
otherwise the first of them is the error. -/
inductive Answers : Except ε α → List ε → Prop where
  | ok (a : α) : Answers (.ok a) []
  | error (e : ε) (later : List ε) : Answers (.error e) (e :: later)

namespace Answers

/-- The complaints about a chain are those about its steps, in order. -/
theorem bind {r : Except ε α} {next : α → Except ε β} {first second : List ε}
    (answers : Answers r first) (nextAnswers : ∀ a, r = .ok a → Answers (next a) second) :
    Answers (r >>= next) (first ++ second) := by
  cases answers with
  | ok a => exact nextAnswers a rfl
  | error e later => exact .error e (later ++ second)

/-- Changing the value does not change the complaints. -/
theorem bind_pure {r : Except ε α} {complaints : List ε} (answers : Answers r complaints)
    (change : α → β) : Answers (r >>= fun a => pure (change a)) complaints := by
  cases answers with
  | ok a => exact .ok (change a)
  | error e later => exact .error e later

/-- The complaints about a chain that begins with a refusal are the refusal, if there is cause
for it, and those about the rest. -/
theorem refuse {cause reason : Prop} [Decidable cause] [Decidable reason] {e : ε}
    {next : Unit → Except ε β} {complaints : List ε} (same : cause ↔ reason)
    (rest : Answers (next ()) complaints) :
    Answers (if cause then throw e >>= next else next ())
      ((if reason then [e] else []) ++ complaints) := by
  by_cases given : cause
  · rw [if_pos given, if_pos (same.mp given)]
    exact .error e complaints
  · rw [if_neg given, if_neg fun found => given (same.mpr found)]
    exact rest

theorem eq_error_iff {r : Except ε α} {complaints : List ε} (answers : Answers r complaints)
    {e : ε} : r = .error e ↔ complaints.head? = some e := by
  cases answers with
  | ok a => simp
  | error first later => simp

theorem exists_eq_ok_iff {r : Except ε α} {complaints : List ε}
    (answers : Answers r complaints) : (∃ a, r = .ok a) ↔ complaints = [] := by
  cases answers with
  | ok a => simp
  | error first later => simp

end Answers

/-! ## Two outcomes -/

/-- Two outcomes agree if both are the same error or both have values, which are related. -/
inductive Agree {δ : Type} (related : α → δ → Prop) : Except ε α → Except ε δ → Prop where
  | ok {a : α} {d : δ} (values : related a d) : Agree related (.ok a) (.ok d)
  | error (e : ε) : Agree related (.error e) (.error e)

namespace Agree

variable {γ δ : Type} {related : α → δ → Prop} {kept : β → γ → Prop}

/-- Chains agree if their first checks do, and the rests do wherever the values are related. -/
theorem bind {first : Except ε α} {second : Except ε δ} {next : α → Except ε β}
    {other : δ → Except ε γ} (agree : Agree related first second)
    (rest : ∀ a d, related a d → first = .ok a → second = .ok d → Agree kept (next a) (other d)) :
    Agree kept (first >>= next) (second >>= other) := by
  cases agree with
  | ok values => exact rest _ _ values rfl rfl
  | error e => exact .error e

theorem bind_pure {first : Except ε α} {second : Except ε δ} {change : α → β} {other : δ → γ}
    (agree : Agree related first second) (rest : ∀ a d, related a d → kept (change a) (other d)) :
    Agree kept (first >>= fun a => pure (change a)) (second >>= fun d => pure (other d)) :=
  agree.bind fun a d values _ _ => .ok (rest a d values)

/-- Chains that begin with the same check agree if their rests do. -/
theorem bind_same {first : Except ε α} {next : α → Except ε β} {other : α → Except ε γ}
    (rest : ∀ a, first = .ok a → Agree kept (next a) (other a)) :
    Agree kept (first >>= next) (first >>= other) := by
  cases first with
  | ok a => exact rest a rfl
  | error e => exact .error e

/-- Chains that begin with refusals agree if these have the same cause and the rests agree. -/
theorem refuse {cause reason : Prop} [Decidable cause] [Decidable reason] {e : ε}
    {next : Unit → Except ε β} {other : Unit → Except ε γ} (same : cause ↔ reason)
    (rest : ¬ cause → Agree kept (next ()) (other ())) :
    Agree kept (if cause then throw e >>= next else next ())
      (if reason then throw e >>= other else other ()) := by
  by_cases given : cause
  · rw [if_pos given, if_pos (same.mp given)]
    exact .error e
  · rw [if_neg given, if_neg fun found => given (same.mpr found)]
    exact rest given

/-- Outcomes that agree do so for every weaker relation of their values. -/
theorem mono {weaker : α → δ → Prop} {first : Except ε α} {second : Except ε δ}
    (agree : Agree related first second)
    (weaken : ∀ a d, first = .ok a → second = .ok d → related a d → weaker a d) :
    Agree weaker first second := by
  cases agree with
  | ok values => exact .ok (weaken _ _ rfl rfl values)
  | error e => exact .error e

/-- Where one outcome has a value, the other one has a related value. -/
theorem of_ok {first : Except ε α} {second : Except ε δ} (agree : Agree related first second)
    {a : α} (ended : first = .ok a) : ∃ d, second = .ok d ∧ related a d := by
  cases agree with
  | ok values =>
      cases ended
      exact ⟨_, rfl, values⟩
  | error e => cases ended

end Agree

end TableAccess
