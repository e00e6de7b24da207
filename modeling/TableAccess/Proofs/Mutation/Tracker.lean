import Mathlib.Data.List.Chain
import TableAccess.Mutation.Tracker

/-!
# Runs of trackers

A tracker is told steps and outcomes, in any order and as often as one likes. A success takes it to
the next phase where the phases allow that, and is refused otherwise; an error is handed back as it
is, whatever the phase. So the phases that a tracker goes through form a path of allowed steps, and
a final phase is not left.
-/

namespace TableAccess

/-- A change is committed only after it has been executed. -/
theorem Phase.canAdvance_committed_iff {phase : Phase} :
    phase.canAdvance .committed = true ↔ phase = .executing := by
  cases phase <;> simp [canAdvance]

namespace Tracker

/-- What a tracker is told: to go on to a phase, how compilation has ended, or how execution has. -/
inductive Call : Type 1 where
  | advance (next : Phase)
  | compiled {α : Type} (outcome : Except Error α)
  | finish {α : Type} (outcome : Except Error α)

namespace Call

/-- What a call hands back if all is well. -/
def Answer : Call → Type
  | advance _ => Unit
  | @compiled α _ => α
  | @finish α _ => α

/-- The outcome that the tracker is told; a step by itself is a success. -/
def told : (call : Call) → Except Error call.Answer
  | advance _ => .ok ()
  | compiled outcome => outcome
  | finish outcome => outcome

/-- The phase that comes after a success. -/
def target : Call → Phase
  | advance next => next
  | compiled _ => .executing
  | finish _ => .committed

def on (t : Tracker) : (call : Call) → Except Error call.Answer × Tracker
  | advance next => t.advance next
  | compiled outcome => t.compiled outcome
  | finish outcome => t.finish outcome

theorem told_cases (call : Call) : (∃ v, call.told = .ok v) ∨ ∃ e, call.told = .error e := by
  cases call.told with
  | ok v => exact .inl ⟨v, rfl⟩
  | error e => exact .inr ⟨e, rfl⟩

end Call

variable {t : Tracker} {call : Call}

/-! ## One call -/

theorem advance_allowed {next : Phase} (allowed : t.phase.canAdvance next = true) :
    t.advance next = (.ok (), { t with phase := next }) :=
  if_pos allowed

theorem advance_refused {next : Phase} (refused : t.phase.canAdvance next = false) :
    t.advance next = (.error (t.illegalStep next), t) :=
  if_neg (by simp [refused])

/-- A success tries the step of its call, and is handed back if that is taken. -/
theorem on_ok {v : call.Answer} (success : call.told = .ok v) :
    call.on t = ((t.advance call.target).1.map fun _ => v, (t.advance call.target).2) := by
  cases call with
  | advance next =>
      have same : (t.advance next).1.map (fun _ => v) = (t.advance next).1 := by
        cases (t.advance next).1 <;> rfl
      exact Prod.ext same.symm rfl
  | compiled outcome =>
      cases outcome with
      | error e => cases success
      | ok w =>
          cases success
          exact compiled_ok t w
  | finish outcome =>
      cases outcome with
      | error e => cases success
      | ok w =>
          cases success
          exact finish_ok t w

/-- An error is handed back as it is, and rolls back where that is allowed. -/
theorem on_error {e : Error} (failure : call.told = .error e) :
    call.on t = (.error e, (t.advance .rolledBack).2) := by
  cases call with
  | advance next => cases failure
  | compiled outcome =>
      obtain rfl : outcome = .error e := failure
      rfl
  | finish outcome =>
      obtain rfl : outcome = .error e := failure
      rfl

/-- A call leaves the tracker alone, or takes it one allowed step on. Only a success commits. -/
theorem on_steps (call : Call) (t : Tracker) :
    (call.on t).2 = t ∨ ∃ next, t.phase.canAdvance next = true ∧
      (call.on t).2 = { t with phase := next } ∧ (next = .committed → ∃ v, call.told = .ok v) := by
  -- what is tried is either the step of a success or the way back after an error
  have tried {next : Phase} (after : (call.on t).2 = (t.advance next).2)
      (successful : next = .committed → ∃ v, call.told = .ok v) :
      (call.on t).2 = t ∨ ∃ next, t.phase.canAdvance next = true ∧
        (call.on t).2 = { t with phase := next } ∧
          (next = .committed → ∃ v, call.told = .ok v) := by
    cases allowed : t.phase.canAdvance next with
    | true =>
        rw [advance_allowed allowed] at after
        exact .inr ⟨next, allowed, after, successful⟩
    | false =>
        rw [advance_refused allowed] at after
        exact .inl after
  rcases call.told_cases with ⟨v, success⟩ | ⟨e, failure⟩
  · exact tried (congrArg Prod.snd (on_ok success)) fun _ => ⟨v, success⟩
  · exact tried (congrArg Prod.snd (on_error failure)) nofun

/-- What a call does to a tracker, and what it hands back. -/
structure Call.Lawful (call : Call) (t : Tracker) : Prop where
  passes : ∀ v, call.told = .ok v → t.phase.canAdvance call.target = true →
    call.on t = (.ok v, { t with phase := call.target })
  refuses : ∀ v, call.told = .ok v → t.phase.canAdvance call.target = false →
    ∃ reason, call.on t = (.error (.transactionFailure reason), t)
  reports : ∀ e, call.told = .error e → (call.on t).1 = .error e ∧
    ((call.on t).2.phase = if t.phase.canAdvance .rolledBack then .rolledBack else t.phase)
  steps : (call.on t).2.phase = t.phase ∨ t.phase.canAdvance (call.on t).2.phase = true
  commits : (call.on t).2.phase = .committed → t.phase ≠ .committed →
    t.phase = .executing ∧ ∃ v, call.told = .ok v
  ends : t.phase.isTerminal = true → (call.on t).2 = t

theorem lawful (call : Call) (t : Tracker) : call.Lawful t where
  passes := fun v success allowed => by rw [on_ok success, advance_allowed allowed]; rfl
  refuses := fun v success refused =>
    ⟨_, by rw [on_ok success, advance_refused refused]; rfl⟩
  reports := fun e failure => by
    rw [on_error failure]
    refine ⟨rfl, ?_⟩
    cases allowed : t.phase.canAdvance .rolledBack with
    | true => rw [advance_allowed allowed]; rfl
    | false => rw [advance_refused allowed]; rfl
  steps := by
    rcases on_steps call t with same | ⟨next, allowed, after, _⟩
    · exact .inl (congrArg Tracker.phase same)
    · rw [after]
      exact .inr allowed
  commits := fun committed before => by
    rcases on_steps call t with same | ⟨next, allowed, after, success⟩
    · exact absurd (same ▸ committed) before
    · rw [after] at committed
      obtain rfl : next = .committed := committed
      exact ⟨Phase.canAdvance_committed_iff.mp allowed, success rfl⟩
  ends := fun final => by
    rcases on_steps call t with same | ⟨next, allowed, _⟩
    · exact same
    · rw [Phase.canAdvance_of_isTerminal final] at allowed
      cases allowed

/-! ## Many calls -/

def after (t : Tracker) : List Call → Tracker
  | [] => t
  | call :: rest => (call.on t).2.after rest

def phases (t : Tracker) : List Call → List Phase
  | [] => [t.phase]
  | call :: rest => t.phase :: (call.on t).2.phases rest

/-- A run begins in the phase of its tracker. -/
theorem phases_eq_cons (t : Tracker) (calls : List Call) :
    ∃ later, t.phases calls = t.phase :: later := by
  cases calls with
  | nil => exact ⟨[], rfl⟩
  | cons call rest => exact ⟨_, rfl⟩

/-- The phases of a run follow each other by allowed steps, but for those that stay. -/
theorem isChain_phases (t : Tracker) (calls : List Call) :
    (t.phases calls).IsChain fun phase next => next = phase ∨ phase.canAdvance next = true := by
  induction calls generalizing t with
  | nil => exact .singleton t.phase
  | cons call rest ih =>
      have first := (lawful call t).steps
      have others := ih (call.on t).2
      obtain ⟨later, same⟩ := phases_eq_cons (call.on t).2 rest
      rw [phases, same]
      rw [same] at others
      exact .cons_cons first others

/-- A run ends in the phase in which it leaves its tracker. -/
theorem getLast?_phases (t : Tracker) (calls : List Call) :
    (t.phases calls).getLast? = some (t.after calls).phase := by
  induction calls generalizing t with
  | nil => rfl
  | cons call rest ih =>
      obtain ⟨later, same⟩ := phases_eq_cons (call.on t).2 rest
      rw [phases, after, ← ih (call.on t).2, same, List.getLast?_cons_cons]

/-- Nothing that is told to a tracker takes it out of a final phase. -/
theorem after_of_isTerminal {t : Tracker} (final : t.phase.isTerminal = true)
    (calls : List Call) : t.after calls = t := by
  induction calls with
  | nil => rfl
  | cons call rest ih => rw [after, (lawful call t).ends final, ih]

/-- What becomes of a tracker while calls are made. -/
structure Course (t : Tracker) (calls : List Call) : Prop where
  begins : ∃ later, t.phases calls = t.phase :: later
  path : (t.phases calls).IsChain fun phase next => next = phase ∨ phase.canAdvance next = true
  finishes : (t.phases calls).getLast? = some (t.after calls).phase
  lawful : ∀ before call rest, calls = before ++ call :: rest → call.Lawful (t.after before)
  settled : ∀ before rest, calls = before ++ rest → (t.after before).phase.isTerminal = true →
    t.after calls = t.after before

theorem after_append (t : Tracker) (calls others : List Call) :
    t.after (calls ++ others) = (t.after calls).after others := by
  induction calls generalizing t with
  | nil => rfl
  | cons call rest ih => exact ih (call.on t).2

theorem course (t : Tracker) (calls : List Call) : t.Course calls where
  begins := phases_eq_cons t calls
  path := isChain_phases t calls
  finishes := getLast?_phases t calls
  lawful := fun before call _ _ => Tracker.lawful call (t.after before)
  settled := fun before rest split final => by
    rw [split, after_append, after_of_isTerminal final]

end Tracker

end TableAccess
