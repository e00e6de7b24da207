/-!
# Attempts

An attempt works on a state and may fail. What it did to the state before it
failed stays done; undoing is the business of transactions.
-/

namespace TableAccess

/-- A computation that changes a state and ends in a value or an error. -/
abbrev Attempt (σ ε : Type) : Type → Type := ExceptT ε (StateM σ)

namespace Attempt

variable {σ τ ε δ α : Type}

def of (step : σ → Except ε α × σ) : Attempt σ ε α := step

def outcome (a : Attempt σ ε α) (s : σ) : Except ε α × σ := a s

def ofExcept (result : Except ε α) : Attempt σ ε α := of fun s => (result, s)

def reading (read : σ → α) : Attempt σ ε α := of fun s => (.ok (read s), s)

def changing (change : σ → σ) : Attempt σ ε Unit := of fun s => (.ok (), change s)

def mapError (rename : ε → δ) (a : Attempt σ ε α) : Attempt σ δ α := of fun s =>
  let (result, next) := a.outcome s
  (result.mapError rename, next)

/-- Makes the outcome a value, so that the attempt itself cannot fail. -/
def observe (a : Attempt σ ε α) : Attempt σ δ (Except ε α) := of fun s =>
  let (result, next) := a.outcome s
  (.ok result, next)

def onPart (part : σ → τ) (replace : σ → τ → σ) (a : Attempt τ ε α) : Attempt σ ε α :=
  of fun s =>
    let (result, next) := a.outcome (part s)
    (result, replace s next)

/-! ## Outcomes of composed attempts -/

@[simp] theorem outcome_of (step : σ → Except ε α × σ) (s : σ) :
    (of step).outcome s = step s :=
  rfl

@[simp] theorem outcome_pure (a : α) (s : σ) :
    (pure a : Attempt σ ε α).outcome s = (.ok a, s) :=
  rfl

@[simp] theorem outcome_throw (e : ε) (s : σ) :
    (throw e : Attempt σ ε α).outcome s = (.error e, s) :=
  rfl

/-- A second attempt starts where the first one ended; after an error there is none. -/
theorem outcome_bind {β : Type} (a : Attempt σ ε α) (next : α → Attempt σ ε β) (s : σ) :
    (a >>= next).outcome s =
      match a.outcome s with
      | (.ok x, reached) => (next x).outcome reached
      | (.error e, reached) => (.error e, reached) := by
  simp only [outcome, bind, ExceptT.bind, ExceptT.mk, StateT.bind]
  cases found : a s with
  | mk result reached => cases result <;> rfl

@[simp] theorem outcome_ofExcept (result : Except ε α) (s : σ) :
    (ofExcept result).outcome s = (result, s) :=
  rfl

@[simp] theorem outcome_reading (read : σ → α) (s : σ) :
    (reading read : Attempt σ ε α).outcome s = (.ok (read s), s) :=
  rfl

@[simp] theorem outcome_changing (change : σ → σ) (s : σ) :
    (changing change : Attempt σ ε Unit).outcome s = (.ok (), change s) :=
  rfl

@[simp] theorem outcome_mapError (rename : ε → δ) (a : Attempt σ ε α) (s : σ) :
    (a.mapError rename).outcome s = ((a.outcome s).1.mapError rename, (a.outcome s).2) :=
  rfl

@[simp] theorem outcome_observe (a : Attempt σ ε α) (s : σ) :
    (a.observe : Attempt σ δ (Except ε α)).outcome s =
      (.ok (a.outcome s).1, (a.outcome s).2) :=
  rfl

@[simp] theorem outcome_onPart (part : σ → τ) (replace : σ → τ → σ) (a : Attempt τ ε α)
    (s : σ) :
    (a.onPart part replace).outcome s =
      ((a.outcome (part s)).1, replace s (a.outcome (part s)).2) :=
  rfl

end Attempt

end TableAccess
