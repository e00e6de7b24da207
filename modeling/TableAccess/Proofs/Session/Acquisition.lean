import TableAccess.Proofs.Attempt
import TableAccess.Proofs.Outcome
import TableAccess.Proofs.Store.Laws
import TableAccess.Session.Handle

/-!
# How a connection is borrowed

A handle has few ways to lend a connection: the one it keeps idle as it is, the first idle one that
answers, or a new one. What is true of each way is true of borrowing, whatever is to be shown.
A connection that comes back without a transaction is idle again, and nothing else has changed.
-/

namespace TableAccess

theorem Settings.maxSize_ne_zero {settings : Settings} (valid : settings.validate = .ok ()) :
    settings.maxSize ≠ 0 := by
  unfold validate at valid
  obtain ⟨_, later⟩ := refuse_eq_ok_iff.mp valid
  exact (refuse_eq_ok_iff.mp later).1

namespace Handle

open Attempt (Ends)

section Machine

variable {σ : Type} {h : Handle σ} {c : Nat} {error : Error → Handle σ → Prop}

/-! ## New connections -/

/-- A new connection is refused if no further one is allowed or the location has no store. -/
theorem openConnection_of_cases {value : Nat → Handle σ → Prop}
    (full : h.settings.maxSize ≤ h.pool.total → error
      (h.engine.ofRefusal h.settings (.exhausted h.pool.active h.settings.maxSize)) h)
    (missing : ∀ fault, h.pool.total < h.settings.maxSize →
      Location.check h.settings.connection = .error fault →
      error (h.engine.ofRefusal h.settings (.cannotOpen fault)) h)
    (opened : h.pool.total < h.settings.maxSize →
      Location.check h.settings.connection = .ok () → value h.pool.opened
      { h with pool := { h.pool with total := h.pool.total + 1, opened := h.pool.opened + 1 } }) :
    openConnection.Ends h value error := by
  unfold openConnection onPool Pool.lendNew
  refine .after rfl ?_
  unfold Ends
  rw [Attempt.outcome_of]
  dsimp only
  rw [Attempt.outcome_of]
  by_cases reached : h.settings.maxSize ≤ h.pool.total
  · rw [if_pos reached]
    exact full reached
  · have room : h.pool.total < h.settings.maxSize := Nat.lt_of_not_le reached
    rw [if_neg reached]
    cases location : Location.check h.settings.connection with
    | ok _ => exact opened room location
    | error fault => exact missing fault room location

variable [Machine σ]

theorem configured_of_ends {refused : Handle σ → Handle σ} {value : Nat → Handle σ → Prop}
    (ends : (Connection.configure c : Attempt σ Error Unit).Ends h.store
      (fun _ s => value c { h with store := s })
      fun e s => error e (refused { h with store := s })) :
    (configured c refused).Ends h value error := by
  unfold configured
  refine .observing (.onPart (ends.mono ?_ ?_))
  · exact fun _ _ set => .pure set
  · exact fun _ _ failed => .after rfl (.throw failed)

/-! ## Idle connections -/

/-- One look for an idle connection that answers. The first one either ends it or is closed, and
then the others are tried. -/
theorem lendAnswering_of_cases {count : Nat} {value : Option Nat → Handle σ → Prop}
    (empty : h.pool.idle = [] → value none h)
    (silent : ∀ c rest, h.pool.idle = c :: rest → Machine.answers h.store c = false →
      (lendAnswering count).Ends (discard c { h with pool := { h.pool with idle := rest } })
        value error)
    (answers : ∀ c rest, h.pool.idle = c :: rest → Machine.answers h.store c = true →
      value (some c) { h with pool := { h.pool with idle := rest } }) :
    (lendAnswering (count + 1)).Ends h value error := by
  unfold lendAnswering
  refine .after rfl ?_
  dsimp only
  unfold Pool.lendIdle?
  cases idle : h.pool.idle with
  | nil => exact .pure (empty idle)
  | cons c rest =>
      refine .after rfl (.after rfl ?_)
      dsimp only
      cases heard : Machine.answers h.store c with
      | false => exact .after rfl (silent c rest idle heard)
      | true => exact .pure (answers c rest idle heard)

/-! ## Borrowing -/

/-- A caller that waits is lent an idle connection as it is, and otherwise a new one that is set
up. A request that is suspended is lent the idle one that answers, or a new one, and either is
set up. -/
theorem acquire_of_cases {value : Nat → Handle σ → Prop}
    (idle : h.engine = .blocking → ∀ c rest, h.pool.idle = c :: rest →
      value c { h with pool := { h.pool with idle := rest } })
    (opened : h.engine = .blocking → h.pool.idle = [] →
      (openConnection >>= fun c => configured c (discard c)).Ends h value error)
    (suspended : h.engine = .async → (lendAnswering h.pool.idle.length).Ends h
      (fun found next => match found with
        | some c => (configured c (release c)).Ends next value error
        | none => (openConnection >>= fun c => configured c (release c)).Ends next value error)
      error) : acquire.Ends h value error := by
  unfold acquire
  refine .after rfl ?_
  dsimp only
  cases engine : h.engine with
  | blocking =>
      refine .after rfl ?_
      dsimp only
      unfold Pool.lendIdle?
      cases kept : h.pool.idle with
      | nil => exact opened engine kept
      | cons c rest => exact .after rfl (.pure (idle engine c rest kept))
  | async =>
      refine .after rfl ((suspended engine).bind ?_ fun _ _ holds => holds)
      rintro (_ | c) next holds
      · exact holds
      · exact .after rfl holds

/-! ## Giving back -/

/-- A connection on which there is nothing to undo is only put among the idle ones. -/
theorem settle_eq_giveBack (idle : (Connection.rollback c).outcome h.store = (.ok (), h.store)) :
    settle c h = giveBack c h := by
  unfold settle
  rw [idle]

theorem release_eq_giveBack (idle : (Connection.rollback c).outcome h.store = (.ok (), h.store)) :
    release c h = giveBack c h := by
  unfold release
  cases h.engine with
  | blocking => exact settle_eq_giveBack idle
  | async => rfl

end Machine

end Handle

/-! ## The store -/

theorem Store.answers_eq_false_iff {s : Store} {c : Nat} :
    Machine.answers s c = false ↔ s.schemaLocked c = true := by
  change (!s.schemaLocked c) = false ↔ _
  simp

/-- Setting a connection up only has its statements matched again. -/
theorem Connection.configure_outcome (c : Nat) (s : Store) :
    (configure c : Attempt Store Error Unit).outcome s =
      if s.schemaLocked c then
        (.error (.connectionFailure
          s!"Failed to configure connection: {Fault.schemaLocked.message}"), s)
      else (.ok (), s.remember c Memory.expire) := by
  have checked : (Store.requireSchema c).outcome s =
      (if s.schemaLocked c then .error .schemaLocked else .ok (), s) := by
    unfold Store.requireSchema
    rw [Attempt.outcome_of]
    split <;> rfl
  have setUp : (Store.configure c).outcome s =
      (if s.schemaLocked c then .error .schemaLocked else .ok (),
        if s.schemaLocked c then s else s.remember c Memory.expire) := by
    unfold Store.configure
    rw [Attempt.outcome_bind, checked]
    cases s.schemaLocked c <;> rfl
  refine (Attempt.outcome_renamed setUp).trans ?_
  cases s.schemaLocked c <;> rfl

theorem Connection.rollback_of_closed {c : Nat} {s : Store} (closed : s.isOpen c = false) :
    (rollback c : Attempt Store Error Unit).outcome s = (.ok (), s) :=
  Attempt.outcome_renamed (Store.rollback_closed closed)

namespace Handle

variable {h : Handle} {c : Nat} {error : Error → Handle → Prop}

/-- A connection can be set up unless the set of tables is being changed. -/
theorem configured_of_cases {refused : Handle → Handle} {value : Nat → Handle → Prop}
    (set : h.store.schemaLocked c = false →
      value c { h with store := h.store.remember c Memory.expire })
    (locked : h.store.schemaLocked c = true → error (.connectionFailure
      s!"Failed to configure connection: {Fault.schemaLocked.message}") (refused h)) :
    (configured c refused).Ends h value error := by
  have setUp := Connection.configure_outcome c h.store
  cases schema : h.store.schemaLocked c with
  | true =>
      rw [schema] at setUp
      exact configured_of_ends (.of_eq_error setUp (locked schema))
  | false =>
      rw [schema] at setUp
      exact configured_of_ends (.of_eq_ok setUp (set schema))

theorem release_closed (closed : h.store.isOpen c = false) :
    release c h = { h with pool := h.pool.keep h.engine.order c } :=
  release_eq_giveBack (Connection.rollback_of_closed closed)

end Handle

end TableAccess
