import TableAccess.Proofs.Attempt

/-!
# Attempts in pairs

Two attempts that start from two states may end in the same way without leaving the same state. What
is known of the two states that are left is carried from one pair of steps to the next. An attempt
that is paired with itself in this way cannot tell the states apart.
-/

namespace TableAccess.Attempt

variable {σ τ ε δ α β : Type}

/-- Two attempts that have the same outcome, with what holds of it and of the states they leave. -/
def Agree (a b : Attempt σ ε α) (s t : σ) (after : Except ε α → σ → σ → Prop) : Prop :=
  (b.outcome t).1 = (a.outcome s).1 ∧ after (a.outcome s).1 (a.outcome s).2 (b.outcome t).2

namespace Agree

variable {a b : Attempt σ ε α} {s t : σ} {after : Except ε α → σ → σ → Prop}

theorem of_eq {result : Except ε α} {u v : σ} (first : a.outcome s = (result, u))
    (second : b.outcome t = (result, v)) (holds : after result u v) : Agree a b s t after := by
  unfold Agree
  rw [first, second]
  exact ⟨rfl, holds⟩

/-- The one outcome of both attempts. -/
theorem exists_outcome (agree : Agree a b s t after) :
    ∃ result u v, a.outcome s = (result, u) ∧ b.outcome t = (result, v) ∧ after result u v :=
  ⟨(a.outcome s).1, (a.outcome s).2, (b.outcome t).2, rfl, Prod.ext agree.1 rfl, agree.2⟩

theorem mono {weaker : Except ε α → σ → σ → Prop} (agree : Agree a b s t after)
    (weaken : ∀ result u v, after result u v → weaker result u v) : Agree a b s t weaker :=
  ⟨agree.1, weaken _ _ _ agree.2⟩

theorem congr {f g : Attempt σ ε α} (first : f.outcome s = a.outcome s)
    (second : g.outcome t = b.outcome t) (agree : Agree a b s t after) : Agree f g s t after := by
  unfold Agree
  rw [first, second]
  exact agree

/-- Values are passed to what comes next, and errors are passed on. -/
theorem bind {f g : α → Attempt σ ε β} {later : Except ε β → σ → σ → Prop}
    (first : Agree a b s t after)
    (values : ∀ x u v, after (.ok x) u v → Agree (f x) (g x) u v later)
    (errors : ∀ e u v, after (.error e) u v → later (.error e) u v) :
    Agree (a >>= f) (b >>= g) s t later := by
  obtain ⟨result, u, v, left, right, holds⟩ := first.exists_outcome
  unfold Agree
  rw [outcome_bind, outcome_bind, left, right]
  cases result with
  | ok x => exact values x u v holds
  | error e => exact ⟨rfl, errors e u v holds⟩

/-- Steps whose values are known are followed by the rest. -/
theorem known {f g : α → Attempt σ ε β} {later : Except ε β → σ → σ → Prop} {x y : α} {u v : σ}
    (first : a.outcome s = (.ok x, u)) (second : b.outcome t = (.ok y, v))
    (rest : Agree (f x) (g y) u v later) : Agree (a >>= f) (b >>= g) s t later := by
  unfold Agree at rest ⊢
  rw [outcome_bind, outcome_bind, first, second]
  exact rest

/-- What comes after attempts that are observed goes on from either of their ends. -/
theorem observing {f g : Except ε α → Attempt σ δ β} {later : Except δ β → σ → σ → Prop}
    (first : Agree a b s t after)
    (each : ∀ result u v, after result u v → Agree (f result) (g result) u v later) :
    Agree (a.observe >>= f) (b.observe >>= g) s t later := by
  obtain ⟨result, u, v, left, right, holds⟩ := first.exists_outcome
  unfold Agree
  rw [outcome_bind, outcome_bind, outcome_observe, outcome_observe, left, right]
  exact each result u v holds

theorem onPart {part : τ → σ} {replace : τ → σ → τ} {p q : τ}
    {later : Except ε α → τ → τ → Prop}
    (agree : Agree a b (part p) (part q) fun result u v =>
      later result (replace p u) (replace q v)) :
    Agree (a.onPart part replace) (b.onPart part replace) p q later :=
  agree

theorem pure {x : α} (holds : after (.ok x) s t) :
    Agree (Pure.pure x : Attempt σ ε α) (Pure.pure x) s t after :=
  ⟨rfl, holds⟩

theorem throw {e : ε} (holds : after (.error e) s t) :
    Agree (MonadExcept.throw e : Attempt σ ε α) (MonadExcept.throw e) s t after :=
  ⟨rfl, holds⟩

/-- A change is made to both states. -/
theorem changing {change other : σ → σ} {next : Unit → Attempt σ ε β}
    {later : Except ε β → σ → σ → Prop}
    (rest : Agree (next ()) (next ()) (change s) (other t) later) :
    Agree (Attempt.changing change >>= next) (Attempt.changing other >>= next) s t later :=
  rest

/-- What is read of both states is the same. -/
theorem reading {read : σ → α} {f g : α → Attempt σ ε β} {later : Except ε β → σ → σ → Prop}
    (same : read t = read s) (rest : Agree (f (read s)) (g (read s)) s t later) :
    Agree (Attempt.reading read >>= f) (Attempt.reading read >>= g) s t later := by
  refine congr rfl ?_ rest
  rw [outcome_bind, outcome_reading, same]

end Agree

/-! ## Attempts that cannot tell states apart -/

/-- An attempt that ends in the same way on two states, with what holds then. -/
abbrev AgreesOn (a : Attempt σ ε α) (s t : σ) (after : Except ε α → σ → σ → Prop) : Prop :=
  Agree a a s t after

/-- An attempt that ends in the same way on related states, and leaves related states. -/
def Respects (a : Attempt σ ε α) (related : σ → σ → Prop) : Prop :=
  ∀ s t, related s t → a.AgreesOn s t fun _ => related

namespace Respects

variable {a : Attempt σ ε α} {related : σ → σ → Prop}

theorem pure (x : α) : (Pure.pure x : Attempt σ ε α).Respects related :=
  fun _ _ holds => .pure holds

theorem throw (e : ε) : (MonadExcept.throw e : Attempt σ ε α).Respects related :=
  fun _ _ holds => .throw holds

theorem ofExcept (result : Except ε α) : (Attempt.ofExcept result).Respects related :=
  fun _ _ holds => ⟨rfl, holds⟩

theorem reading {read : σ → α} (same : ∀ s t, related s t → read t = read s) :
    (Attempt.reading read : Attempt σ ε α).Respects related :=
  fun s t holds => ⟨congrArg Except.ok (same s t holds), holds⟩

/-- An attempt that only looks at a state. -/
theorem looking {look : σ → Except ε α} (same : ∀ s t, related s t → look t = look s) :
    (Attempt.of fun s => (look s, s)).Respects related :=
  fun s t holds => ⟨same s t holds, holds⟩

theorem changing {change : σ → σ} (keeps : ∀ s t, related s t → related (change s) (change t)) :
    (Attempt.changing change : Attempt σ ε Unit).Respects related :=
  fun s t holds => ⟨rfl, keeps s t holds⟩

theorem bind {next : α → Attempt σ ε β} (first : a.Respects related)
    (second : ∀ x, (next x).Respects related) : (a >>= next).Respects related :=
  fun s t holds => (first s t holds).bind (fun x u v kept => second x u v kept)
    fun _ _ _ kept => kept

theorem kept {s : σ} (respects : a.Respects related) (holds : related s s) :
    related (a.outcome s).2 (a.outcome s).2 :=
  (respects s s holds).2

theorem observe (respects : a.Respects related) :
    (a.observe : Attempt σ δ (Except ε α)).Respects related :=
  fun s t holds => ⟨congrArg Except.ok (respects s t holds).1, (respects s t holds).2⟩

theorem mapError {rename : ε → δ} (respects : a.Respects related) :
    (a.mapError rename).Respects related :=
  fun s t holds => ⟨congrArg (Except.mapError rename) (respects s t holds).1,
    (respects s t holds).2⟩

theorem onPart {part : τ → σ} {replace : τ → σ → τ} {paired : τ → τ → Prop}
    (respects : a.Respects related) (parts : ∀ p q, paired p q → related (part p) (part q))
    (replaced : ∀ p q u v, paired p q → related u v → paired (replace p u) (replace q v)) :
    (a.onPart part replace).Respects paired :=
  fun p q holds => .onPart ((respects _ _ (parts p q holds)).mono fun _ u v kept =>
    replaced p q u v holds kept)

end Respects

end TableAccess.Attempt
