import TableAccess.Proofs.Machine.Laws

/-!
# Brackets that begin a transaction and brackets that join one

Where a connection has a transaction open, a bracket is nothing but its body: it neither commits
nor rolls back. Otherwise it begins a transaction, and at its end the store holds what the body
has made of it, or what it held before.
-/

namespace TableAccess

open Attempt (Ends Keeps)
open Machine (Aspect Transacts)

namespace Connection

variable {σ α : Type} [Machine σ] {c : Nat} {s : σ}

theorem enter_open (opened : Machine.isOpen s c = true) (mode : Mode) :
    (enter c mode : Attempt σ Error Bool).outcome s = (.ok false, s) := by
  unfold enter
  rw [Attempt.outcome_bind, Attempt.outcome_reading]
  dsimp only
  rw [opened]
  rfl

/-- Where no transaction is open it does not matter that one is looked for. -/
theorem enter_closed (closed : Machine.isOpen s c = false) (mode : Mode) :
    (enter c mode : Attempt σ Error Bool).outcome s =
      (begin c mode >>= fun _ => pure true : Attempt σ Error Bool).outcome s := by
  unfold enter
  rw [Attempt.outcome_bind, Attempt.outcome_reading]
  dsimp only
  rw [closed]
  rfl

/-- A bracket on a connection that has a transaction open is its body. -/
theorem inTransaction_joins (opened : Machine.isOpen s c = true) (mode : Mode)
    (body : Attempt σ Error α) : (inTransaction c mode body).outcome s = body.outcome s := by
  unfold inTransaction
  rw [Attempt.outcome_bind, enter_open opened]
  rfl

/-- What holds of a body holds of a bracket around it where a transaction is open. -/
theorem joined_ends {mode : Mode} {body : Attempt σ Error α} {value : α → σ → Prop}
    {error : Error → σ → Prop} (opened : Machine.isOpen s c = true)
    (ends : body.Ends s value error) : (inTransaction c mode body).Ends s value error :=
  .congr (inTransaction_joins opened mode body) ends

variable {v : Aspect σ} (laws : Transacts v) {db : Database} {x : Content}

include laws

/-- A transaction begins with the content that the store has, or not at all. -/
theorem begin_within (known : v.known c) (rest : v.Rest db s) (mode : Mode) :
    (begin c mode : Attempt σ Error Unit).Ends s
      (fun _ t => v.Within c db { database := db } t) fun _ t => v.Rest db t :=
  .renamed (laws.begin mode known rest)

theorem commit_rest (within : v.Within c db x s) : (commit c : Attempt σ Error Unit).Ends s
    (fun _ t => ¬ 0 < x.owed ∧ v.Rest x.database t) fun _ t => v.Within c db x t :=
  .renamed (laws.commit within)

theorem commit_closed (known : v.known c) (rest : v.Rest db s) :
    (commit c : Attempt σ Error Unit).Ends s (fun _ _ => False) fun _ t => v.Rest db t :=
  .renamed (laws.commit_closed known rest)

theorem rollback_rest (within : v.Within c db x s) :
    (rollback c : Attempt σ Error Unit).Ends s (fun _ t => v.Rest db t) fun _ _ => False :=
  .mapError (laws.rollback within)

theorem rollback_closed (known : v.known c) (rest : v.Rest db s) :
    (rollback c : Attempt σ Error Unit).outcome s = (.ok (), s) := by
  unfold rollback
  rw [Attempt.outcome_mapError, laws.rollback_closed known rest]
  rfl

theorem enter_within (known : v.known c) (rest : v.Rest db s) (mode : Mode) :
    (enter c mode : Attempt σ Error Bool).Ends s
      (fun began t => began = true ∧ v.Within c db { database := db } t)
      fun _ t => v.Rest db t := by
  refine .congr (enter_closed (laws.closed known rest) mode) ?_
  refine (begin_within laws known rest mode).bind ?_ fun _ _ kept => kept
  exact fun _ _ within => .pure ⟨rfl, within⟩

theorem fail_rest (within : v.Within c db x s) (e : Error) :
    (fail c e : Attempt σ Error α).Ends s (fun _ _ => False)
      fun error t => error = e ∧ v.Rest db t := by
  unfold fail
  refine .observing ((rollback_rest laws within).mono ?_ fun _ _ never => never.elim)
  exact fun _ _ rest => .throw ⟨rfl, rest⟩

/-- The end of a body that succeeded: what it has made of the content stays exactly if its
transaction can be committed. -/
theorem conclude_ok_rest (within : v.Within c db x s) (w : α) :
    (conclude c (.ok w) : Attempt σ Error α).Ends s
      (fun u t => u = w ∧ ¬ 0 < x.owed ∧
        (commit c : Attempt σ Error Unit).outcome s = (.ok (), t) ∧ v.Rest x.database t)
      fun e t => (∃ reached, (commit c : Attempt σ Error Unit).outcome s = (.error e, reached)) ∧
        v.Rest db t := by
  unfold conclude
  rcases (commit_rest laws within).cases with
    ⟨_, reached, ended, settled, rest⟩ | ⟨e, reached, ended, held⟩
  · exact .observing (.of_eq_ok ended (.pure ⟨rfl, settled, ended, rest⟩))
  · refine .observing (.of_eq_error ended ((fail_rest laws held e).mono ?_ ?_))
    · exact fun _ _ never => never.elim
    · rintro _ t ⟨rfl, rest⟩
      exact ⟨⟨reached, ended⟩, rest⟩

/-- A bracket on a connection without a transaction makes of the store what its body makes of the
content, or leaves the content as it was. -/
theorem inTransaction_rest {body : Attempt σ Error α} {q : α → Content → Prop}
    (known : v.known c) (rest : v.Rest db s) (mode : Mode)
    (inner : ∀ entered, v.Within c db { database := db } entered →
      body.Ends entered (fun w t => ∃ y, q w y ∧ v.Within c db y t)
        fun _ t => v.Inside c db t) :
    (inTransaction c mode body).Ends s
      (fun w t => ∃ y, q w y ∧ ¬ 0 < y.owed ∧ v.Rest y.database t)
      fun _ t => v.Rest db t := by
  unfold inTransaction
  refine (enter_within laws known rest mode).bind ?_ fun _ _ kept => kept
  rintro _ entered ⟨rfl, within⟩
  refine .observing ((inner entered within).mono ?_ ?_)
  · rintro w t ⟨y, holds, held⟩
    refine (conclude_ok_rest laws held w).mono ?_ ?_
    · rintro _ next ⟨rfl, settled, _, rest⟩
      exact ⟨y, holds, settled, rest⟩
    · exact fun _ _ ⟨_, rest⟩ => rest
  · rintro e t ⟨y, held⟩
    exact (fail_rest laws held e).mono (fun _ _ never => never.elim) fun _ _ ⟨_, rest⟩ => rest

end Connection

end TableAccess
