import TableAccess.Proofs.Session.Acquisition
import TableAccess.Proofs.Session.Bracket

/-!
# Lending connections

A handle that is ready lends a connection that has no transaction open, whichever way it waits,
and is ready again when the connection comes back. So work that ends in some way on a store at
rest ends in the same way on a handle.
-/

namespace TableAccess

namespace Handle

open Attempt (Ends)

variable {others : List Transaction} {table sql : String} {db : Database} {h : Handle} {c : Nat}
  {α : Type}

/-- A further connection can be opened, and it is none of those with an open transaction. -/
structure CanOpen (others : List Transaction) (h : Handle) : Prop where
  room : h.pool.total < h.settings.maxSize
  location : Location.check h.settings.connection = .ok ()
  elsewhere : ∀ t ∈ others, t.connection ≠ h.pool.opened

/-- A handle around a store at rest whose idle connections have no transaction open. -/
structure Calm (others : List Transaction) (table sql : String) (db : Database) (h : Handle) :
    Prop where
  store : Resting others sql db h.store
  quiet : Quiet others table
  idle : ∀ c ∈ h.pool.idle, ∀ t ∈ others, t.connection ≠ c

/-- A calm handle that can lend a connection for a change of a table. The open transactions are
those of connections that others have borrowed. -/
structure Ready (others : List Transaction) (table sql : String) (db : Database) (h : Handle) :
    Prop extends Calm others table sql db h where
  available : h.pool.idle ≠ [] ∨ CanOpen others h

/-! ## Opening and setting up -/

theorem openConnection_ends (calm : Calm others table sql db h) (room : CanOpen others h) :
    (openConnection : Attempt Handle Error Nat).Ends h
      (fun c next => Calm others table sql db next ∧ Clear others c table)
      fun _ _ => False := by
  refine openConnection_of_cases ?_ ?_ fun _ _ => ⟨?_, calm.quiet, room.elsewhere⟩
  · exact fun full => Nat.not_le.mpr room.room full
  · exact fun fault _ missing => nomatch room.location.symm.trans missing
  · exact ⟨calm.store, calm.quiet, calm.idle⟩

theorem configured_ends (calm : Calm others table sql db h) (refused : Handle → Handle) :
    (configured c refused).Ends h (fun d next => d = c ∧ Calm others table sql db next)
      fun _ _ => False := by
  refine configured_of_cases (fun _ => ⟨rfl, ⟨?_, calm.quiet, calm.idle⟩⟩) fun locked => ?_
  · exact ⟨calm.store.database, calm.store.transactions, calm.store.writer,
      calm.store.legible.expire⟩
  · exact Bool.eq_false_iff.mp (calm.store.schemaLocked calm.quiet c) locked

/-! ## Lending -/

theorem lendIdle_calm {rest : List Nat} (calm : Calm others table sql db h)
    (idle : h.pool.idle = c :: rest) :
    Calm others table sql db { h with pool := { h.pool with idle := rest } } ∧
      Clear others c table := by
  have members := calm.idle
  rw [idle] at members
  constructor
  · exact ⟨calm.store, calm.quiet, fun d member => members d (List.mem_cons_of_mem c member)⟩
  · exact ⟨calm.quiet, members c List.mem_cons_self⟩

/-- Every idle connection of a calm handle answers, so the first one is lent. -/
theorem lendAnswering_ends (calm : Calm others table sql db h) :
    (lendAnswering h.pool.idle.length).Ends h
      (fun lent next => Calm others table sql db next ∧ match lent with
        | some c => Clear others c table
        | none => h.pool.idle = [] ∧ next = h)
      fun _ _ => False := by
  cases idle : h.pool.idle with
  | nil => exact .pure ⟨calm, rfl, rfl⟩
  | cons _ _ =>
      refine lendAnswering_of_cases (fun none => ⟨calm, idle.symm.trans none, rfl⟩) ?_ ?_
      · intro c rest _ silent
        have locked : h.store.schemaLocked c = true := Store.answers_eq_false_iff.mp silent
        exact (Bool.eq_false_iff.mp (calm.store.schemaLocked calm.quiet c) locked).elim
      · exact fun c rest idle _ => lendIdle_calm calm idle

/-- A handle that is ready lends a connection without a transaction of its own. -/
theorem acquire_ends (ready : Ready others table sql db h) :
    acquire.Ends h (fun c next => Calm others table sql db next ∧ Clear others c table)
      fun _ _ => False := by
  have calm : Calm others table sql db h := ready.toCalm
  have room (none : h.pool.idle = []) : CanOpen others h := by
    rcases ready.available with some | room
    · exact (some none).elim
    · exact room
  have setUp {next : Handle} {c : Nat} (held : Calm others table sql db next)
      (clear : Clear others c table) (refused : Handle → Handle) :
      (configured c refused).Ends next
        (fun c next => Calm others table sql db next ∧ Clear others c table) fun _ _ => False := by
    refine (configured_ends held refused).mono ?_ fun _ _ never => never
    rintro _ last ⟨rfl, kept⟩
    exact ⟨kept, clear⟩
  refine acquire_of_cases (fun _ c rest idle => lendIdle_calm calm idle) ?_ ?_
  · intro _ none
    refine (openConnection_ends calm (room none)).bind ?_ fun _ _ never => never
    exact fun c next ⟨held, clear⟩ => setUp held clear _
  · intro _
    refine (lendAnswering_ends calm).mono ?_ fun _ _ never => never
    rintro (_ | c) next ⟨held, found⟩
    · obtain ⟨none, rfl⟩ := found
      refine (openConnection_ends calm (room none)).bind ?_ fun _ _ never => never
      exact fun c next ⟨held, clear⟩ => setUp held clear _
    · exact setUp held found _

/-- A connection that comes back without an open transaction can be lent again. -/
theorem release_ready (calm : Calm others table sql db h) (clear : Clear others c table) :
    Ready others table sql db (h.release c) := by
  have members (d : Nat) : d ∈ (h.pool.keep h.engine.order c).idle ↔ d = c ∨ d ∈ h.pool.idle := by
    unfold Pool.keep
    cases h.engine.order with
    | lastReturned => simp
    | firstReturned => simp [or_comm]
  rw [release_closed (calm.store.isOpen clear)]
  refine ⟨⟨calm.store, calm.quiet, fun d member => ?_⟩, .inl ?_⟩
  · rcases (members d).mp member with rfl | old
    · exact clear.elsewhere
    · exact calm.idle d old
  · exact List.ne_nil_of_mem ((members c).mpr (.inl rfl))

/-- Work on a handle that is ready ends as it does on a store at rest, if it leaves the store at
rest. -/
theorem withConnection_outcome {work : Nat → Attempt Store Error α} {result : Except Error α}
    {after : Database} (ready : Ready others table sql db h)
    (each : ∀ c s, Clear others c table → Resting others sql db s →
      ((work c).outcome s).1 = result ∧ Resting others sql after ((work c).outcome s).2) :
    ((withConnection work).outcome h).1 = result ∧
      Ready others table sql after ((withConnection work).outcome h).2 := by
  obtain ⟨c, lent, acquired, calm, clear⟩ := (acquire_ends ready).exists_ok
  obtain ⟨same, rest⟩ := each c lent.store clear calm.store
  have worked : Calm others table sql after
      { lent with store := ((work c).outcome lent.store).2 } :=
    ⟨rest, calm.quiet, calm.idle⟩
  have whole : (withConnection work).outcome h =
      (((work c).outcome lent.store).1,
        release c { lent with store := ((work c).outcome lent.store).2 }) := by
    unfold withConnection onStore
    rw [Attempt.outcome_bind, acquired]
    rfl
  rw [whole]
  exact ⟨same, release_ready worked clear⟩

end Handle

end TableAccess
