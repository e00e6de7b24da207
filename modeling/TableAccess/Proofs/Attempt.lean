import TableAccess.Attempt

/-!
# How attempts end

An attempt on a state ends with a value or with an error, and leaves a state behind. What is
known of both endings is carried from one step of an attempt to the next.
-/

namespace TableAccess.Attempt

variable {σ τ ε δ α β : Type}

/-- What holds of the value of an attempt or of its error, and of the state it leaves. -/
def Ends (a : Attempt σ ε α) (s : σ) (value : α → σ → Prop) (error : ε → σ → Prop) : Prop :=
  match a.outcome s with
  | (.ok v, next) => value v next
  | (.error e, next) => error e next

theorem outcome_renamed {a : Attempt σ ε α} {rename : ε → δ} {s t : σ} {result : Except ε α}
    (ended : a.outcome s = (result, t)) :
    (a.mapError rename).outcome s = (result.mapError rename, t) := by
  rw [outcome_mapError, ended]

namespace Ends

variable {a : Attempt σ ε α} {s : σ} {value : α → σ → Prop} {error : ε → σ → Prop}

theorem of_eq_ok {v : α} {next : σ} (ended : a.outcome s = (.ok v, next)) (holds : value v next) :
    a.Ends s value error := by
  rw [Ends, ended]
  exact holds

theorem of_eq_error {e : ε} {next : σ} (ended : a.outcome s = (.error e, next))
    (holds : error e next) : a.Ends s value error := by
  rw [Ends, ended]
  exact holds

/-- An attempt ends in one of the two ways. -/
theorem cases (ends : a.Ends s value error) :
    (∃ v next, a.outcome s = (.ok v, next) ∧ value v next) ∨
      ∃ e next, a.outcome s = (.error e, next) ∧ error e next := by
  unfold Ends at ends
  split at ends
  · rename_i v next ended
    exact .inl ⟨v, next, ended, ends⟩
  · rename_i e next ended
    exact .inr ⟨e, next, ended, ends⟩

/-- Attempts that come to the same have the same end. -/
theorem congr {b : Attempt σ ε α} (same : a.outcome s = b.outcome s) (ends : b.Ends s value error) :
    a.Ends s value error := by
  unfold Ends at ends ⊢
  rw [same]
  exact ends

/-- An attempt that cannot fail ends with a value. -/
theorem exists_ok (ends : a.Ends s value fun _ _ => False) :
    ∃ v next, a.outcome s = (.ok v, next) ∧ value v next := by
  rcases ends.cases with ended | ⟨_, _, _, never⟩
  · exact ended
  · exact never.elim

theorem mono {weaker : α → σ → Prop} {other : ε → σ → Prop} (ends : a.Ends s value error)
    (values : ∀ v next, value v next → weaker v next)
    (errors : ∀ e next, error e next → other e next) : a.Ends s weaker other := by
  rcases ends.cases with ⟨v, next, ended, holds⟩ | ⟨e, next, ended, holds⟩
  · exact of_eq_ok ended (values v next holds)
  · exact of_eq_error ended (errors e next holds)

/-- What is known of an attempt holds of the end that it has. -/
theorem holds_ok (ends : a.Ends s value error) {v : α} {next : σ}
    (ended : a.outcome s = (.ok v, next)) : value v next := by
  unfold Ends at ends
  rw [ended] at ends
  exact ends

theorem holds_error (ends : a.Ends s value error) {e : ε} {next : σ}
    (ended : a.outcome s = (.error e, next)) : error e next := by
  unfold Ends at ends
  rw [ended] at ends
  exact ends

/-- An attempt has only one end, of which all holds that is known of it. -/
theorem and {kept : α → σ → Prop} {lost : ε → σ → Prop} (ends : a.Ends s value error)
    (other : a.Ends s kept lost) :
    a.Ends s (fun v next => value v next ∧ kept v next)
      fun e next => error e next ∧ lost e next := by
  rcases ends.cases with ⟨v, next, ended, holds⟩ | ⟨e, next, ended, holds⟩
  · exact of_eq_ok ended ⟨holds, other.holds_ok ended⟩
  · exact of_eq_error ended ⟨holds, other.holds_error ended⟩

/-- A step whose end is known is followed by the rest. -/
theorem after {next : α → Attempt σ ε β} {kept : β → σ → Prop} {lost : ε → σ → Prop} {v : α}
    {t : σ} (ended : a.outcome s = (.ok v, t)) (rest : (next v).Ends t kept lost) :
    (a >>= next).Ends s kept lost := by
  have whole := outcome_bind a next s
  rw [ended] at whole
  rcases rest.cases with ⟨w, final, later, holds⟩ | ⟨e, final, later, holds⟩
  · exact of_eq_ok (whole.trans later) holds
  · exact of_eq_error (whole.trans later) holds

/-- After a step that failed there is none. -/
theorem stop {next : α → Attempt σ ε β} {kept : β → σ → Prop} {lost : ε → σ → Prop} {e : ε}
    {t : σ} (ended : a.outcome s = (.error e, t)) (holds : lost e t) :
    (a >>= next).Ends s kept lost := by
  have whole := outcome_bind a next s
  rw [ended] at whole
  exact of_eq_error whole holds

/-- A step that may fail passes its errors on, and its value to what comes next. -/
theorem bind {next : α → Attempt σ ε β} {kept : β → σ → Prop} {lost : ε → σ → Prop}
    (first : a.Ends s value error)
    (second : ∀ v reached, value v reached → (next v).Ends reached kept lost)
    (errors : ∀ e reached, error e reached → lost e reached) : (a >>= next).Ends s kept lost := by
  rcases first.cases with ⟨v, reached, ended, holds⟩ | ⟨e, reached, ended, holds⟩
  · exact after ended (second v reached holds)
  · exact stop ended (errors e reached holds)

/-- What comes after an attempt that is observed goes on from either of its ends. -/
theorem observing {next : Except ε α → Attempt σ δ β} {kept : β → σ → Prop} {lost : δ → σ → Prop}
    (ends : a.Ends s (fun v t => (next (.ok v)).Ends t kept lost)
      fun e t => (next (.error e)).Ends t kept lost) : (a.observe >>= next).Ends s kept lost := by
  rcases ends.cases with ⟨v, t, ended, rest⟩ | ⟨e, t, ended, rest⟩
  · exact after (by rw [outcome_observe, ended]) rest
  · exact after (by rw [outcome_observe, ended]) rest

theorem mapError {rename : ε → δ} {lost : δ → σ → Prop}
    (ends : a.Ends s value fun e next => lost (rename e) next) :
    (a.mapError rename).Ends s value lost := by
  rcases ends.cases with ⟨v, next, ended, holds⟩ | ⟨e, next, ended, holds⟩
  · exact of_eq_ok (by rw [outcome_mapError, ended]; rfl) holds
  · exact of_eq_error (by rw [outcome_mapError, ended]; rfl) holds

/-- Another name for the error changes nothing about the state that is left. -/
theorem renamed {rename : ε → δ} {lost : σ → Prop}
    (ends : a.Ends s value fun _ next => lost next) :
    (a.mapError rename).Ends s value fun _ next => lost next :=
  mapError ends

theorem onPart {part : τ → σ} {replace : τ → σ → τ} {t : τ} {kept : α → τ → Prop}
    {lost : ε → τ → Prop}
    (ends : a.Ends (part t) (fun v next => kept v (replace t next)) fun e next =>
      lost e (replace t next)) : (a.onPart part replace).Ends t kept lost := by
  rcases ends.cases with ⟨v, next, ended, holds⟩ | ⟨e, next, ended, holds⟩
  · exact of_eq_ok (by rw [outcome_onPart, ended]) holds
  · exact of_eq_error (by rw [outcome_onPart, ended]) holds

theorem pure {v : α} (holds : value v s) : (Pure.pure v : Attempt σ ε α).Ends s value error :=
  of_eq_ok rfl holds

theorem throw {e : ε} (holds : error e s) :
    (MonadExcept.throw e : Attempt σ ε α).Ends s value error :=
  of_eq_error rfl holds

/-- A value that is only wrapped changes nothing about the state. -/
theorem wrapped {wrap : α → β} {kept : β → σ → Prop}
    (ends : a.Ends s (fun v next => kept (wrap v) next) error) :
    (a >>= fun v => Pure.pure (wrap v)).Ends s kept error :=
  ends.bind (fun _ _ holds => .pure holds) fun _ _ holds => holds

/-- An attempt ends in some way, whatever is asked of neither ending. -/
theorem somehow (a : Attempt σ ε α) (s : σ) : a.Ends s (fun _ _ => True) fun _ _ => True := by
  unfold Ends
  split <;> trivial

/-- What an attempt comes to. -/
theorem itself (a : Attempt σ ε α) (s : σ) :
    a.Ends s (fun v next => a.outcome s = (.ok v, next))
      fun e next => a.outcome s = (.error e, next) := by
  unfold Ends
  split
  · assumption
  · assumption

/-- An attempt that only looks at the state. -/
theorem looking (look : σ → Except ε α) : (Attempt.of fun state => (look state, state)).Ends s
    (fun v next => next = s ∧ look s = .ok v) fun e next => next = s ∧ look s = .error e := by
  cases found : look s with
  | ok v => exact of_eq_ok (by rw [outcome_of, found]) ⟨rfl, rfl⟩
  | error e => exact of_eq_error (by rw [outcome_of, found]) ⟨rfl, rfl⟩

theorem ofExcept (result : Except ε α) : (Attempt.ofExcept result).Ends s
    (fun v next => next = s ∧ result = .ok v) fun e next => next = s ∧ result = .error e :=
  looking fun _ => result

/-- What holds at both ends holds of the outcome. -/
theorem holds {p : Except ε α × σ → Prop}
    (ends : a.Ends s (fun v t => p (.ok v, t)) fun e t => p (.error e, t)) : p (a.outcome s) := by
  rcases ends.cases with ⟨v, t, ended, holds⟩ | ⟨e, t, ended, holds⟩
  · exact ended ▸ holds
  · exact ended ▸ holds

/-- What holds at both ends holds of the state that is left. -/
theorem leaves {p : σ → Prop} (ends : a.Ends s (fun _ t => p t) fun _ t => p t) :
    p (a.outcome s).2 :=
  holds (p := fun ended => p ended.2) ends

end Ends

/-! ## Attempts that keep something -/

/-- An attempt that keeps what holds of a state, however it ends. -/
def Keeps (a : Attempt σ ε α) (p : σ → Prop) : Prop :=
  ∀ s, p s → p (a.outcome s).2

namespace Keeps

variable {a : Attempt σ ε α} {p : σ → Prop}

theorem of_ends (ends : ∀ s, p s → a.Ends s (fun _ t => p t) fun _ t => p t) : a.Keeps p :=
  fun s holds => (ends s holds).leaves

theorem ends {s : σ} (keeps : a.Keeps p) (holds : p s) :
    a.Ends s (fun _ t => p t) fun _ t => p t := by
  have kept := keeps s holds
  unfold Ends
  split
  · rename_i ended
    rw [ended] at kept
    exact kept
  · rename_i ended
    rw [ended] at kept
    exact kept

theorem pure (v : α) : (Pure.pure v : Attempt σ ε α).Keeps p := fun _ holds => holds

theorem throw (e : ε) : (MonadExcept.throw e : Attempt σ ε α).Keeps p := fun _ holds => holds

theorem reading (read : σ → α) : (Attempt.reading read : Attempt σ ε α).Keeps p :=
  fun _ holds => holds

theorem looking (look : σ → Except ε α) : (Attempt.of fun s => (look s, s)).Keeps p :=
  fun _ holds => holds

theorem ofExcept (result : Except ε α) : (Attempt.ofExcept result).Keeps p :=
  fun _ holds => holds

theorem changing {change : σ → σ} (keeps : ∀ s, p s → p (change s)) :
    (Attempt.changing change : Attempt σ ε Unit).Keeps p :=
  keeps

theorem bind {next : α → Attempt σ ε β} (first : a.Keeps p) (second : ∀ v, (next v).Keeps p) :
    (a >>= next).Keeps p := by
  intro s holds
  have reached := first s holds
  rw [Attempt.outcome_bind]
  cases ended : a.outcome s with
  | mk result t =>
      rw [ended] at reached
      cases result with
      | ok v => exact second v t reached
      | error e => exact reached

/-- What is read of a state is known of it. -/
theorem reading_bind {read : σ → α} {next : α → Attempt σ ε β}
    (rest : ∀ s, p s → p ((next (read s)).outcome s).2) : (Attempt.reading read >>= next).Keeps p :=
  fun s holds => by
    rw [Attempt.outcome_bind]
    exact rest s holds

theorem mapError {rename : ε → δ} (keeps : a.Keeps p) : (a.mapError rename).Keeps p := keeps

theorem observe (keeps : a.Keeps p) : (a.observe : Attempt σ δ (Except ε α)).Keeps p := keeps

theorem onPart {part : τ → σ} {replace : τ → σ → τ} {q : τ → Prop}
    (keeps : ∀ t, q t → q (replace t (a.outcome (part t)).2)) :
    (a.onPart part replace).Keeps q :=
  keeps

end Keeps

end TableAccess.Attempt
