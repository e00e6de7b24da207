import TableAccess.Proofs.Mutation.Tracker
import TableAccess.Proofs.Session.Scope

/-!
# Followed changes

Every change of a table is followed by a tracker, which never alters how it turns out: the outcome
is the error of its compilation or what its execution ends in, and the tracker tells by its last
phase which of them it was. An insert, an update or a deletion on a handle needs a connection
first. Without one there is nothing to follow, and the refusal is the outcome.
-/

namespace TableAccess

variable {σ α β : Type} {table : String} {operation : Operation} {compiled : Except Error β}

/-! ## Calls of a change -/

namespace Tracker

/-- What a tracker is told of a change: how it compiles and, if it does, how it is executed. -/
def callsOf (compiled : Except Error β) (run : β → Attempt σ Error α) (s : σ) : List Call :=
  match compiled with
  | .ok request => [.compiled compiled, .finish ((run request).outcome s).1]
  | .error _ => [.compiled compiled]

theorem after_callsOf (run : β → Attempt σ Error α) (s : σ) :
    (start table operation).after (callsOf compiled run s) =
      (follow table operation compiled run s).1.2 := by
  cases compiled with
  | ok request => rfl
  | error e => rfl

/-- An attempt is a change that is compiled and executed while a tracker follows it. -/
structure Follows (table : String) (operation : Operation) (compiled : Except Error β)
    (run : β → Attempt σ Error α) (change : Attempt σ Error α) (s : σ) : Prop where
  rejected : ∀ e, compiled = .error e → change.outcome s = (.error e, s)
  executed : ∀ request, compiled = .ok request → change.outcome s = (run request).outcome s
  followed : ∃ ended, ended = (start table operation).after (callsOf compiled run s) ∧
    follow table operation compiled run s = (((change.outcome s).1, ended), (change.outcome s).2) ∧
    (ended.phase = .committed ↔ ∃ v, (change.outcome s).1 = .ok v) ∧
    (ended.phase = .rolledBack ↔ ∃ e, (change.outcome s).1 = .error e)

theorem Follows.congr {run : β → Attempt σ Error α} {change other : Attempt σ Error α} {s : σ}
    (same : change.outcome s = other.outcome s)
    (follows : Follows table operation compiled run other s) :
    Follows table operation compiled run change s := by
  constructor
  · exact same ▸ follows.rejected
  · exact same ▸ follows.executed
  · exact same ▸ follows.followed

theorem follows_tracked (run : β → Attempt σ Error α) (s : σ) :
    Follows table operation compiled run (tracked table operation compiled run) s where
  rejected := by
    rintro e rfl
    exact tracked_error e run s
  executed := by
    rintro request rfl
    exact tracked_ok request run s
  followed := by
    refine ⟨_, rfl, by rw [after_callsOf]; rfl, ?_⟩
    rw [after_callsOf]
    obtain ⟨committed, rolledBack⟩ := follow_phase table operation compiled run s
    have outcome : ((tracked table operation compiled run).outcome s).1 =
        (follow table operation compiled run s).1.1 := rfl
    rw [outcome]
    cases ended : (follow table operation compiled run s).1.1 with
    | ok v => simp [committed v ended]
    | error e => simp [rolledBack e ended]

end Tracker

/-! ## Entry points -/

section Machine

variable [Machine σ]

namespace Session

/-- Executes a compiled bulk update, chunk by chunk on one connection. -/
def runChunks (c size : Nat) (request : Option BulkUpdate) : Attempt σ Error BulkReport :=
  request.elim (pure {}) fun b =>
    BulkReport.overChunks (Connection.updateChunk c b) {} (b.chunks size)

theorem bulkUpdate_eq_tracked (s : Session) (table : String) (rows : List RowValues)
    (keys : List String) (size : Nat) :
    (s.bulkUpdate table rows keys size : Attempt σ Error BulkReport) =
      Tracker.tracked table .bulkUpdate (BulkUpdate.compile s.snapshot table rows keys size)
        (runChunks s.connection size) := by
  refine congrArg (Tracker.tracked table .bulkUpdate _) (funext fun request => ?_)
  cases request <;> rfl

end Session

theorem AsyncSession.bulkUpdate_eq_tracked (s : AsyncSession) (table : String)
    (rows : List RowValues) (keys : List String) (size : Nat) :
    (s.bulkUpdate table rows keys size : Attempt (Timed σ) Error BulkReport) =
      Tracker.tracked table .bulkUpdate (BulkUpdate.compile s.snapshot table rows keys size)
        fun request => s.runToCompletion (Session.runChunks s.connection size request) := by
  refine congrArg (Tracker.tracked table .bulkUpdate _) (funext fun request => ?_)
  cases request with
  | none => rfl
  | some b => exact congrArg s.runToCompletion (BulkReport.foldlM_eq_overChunks _ _ _)

namespace Handle

/-- Executes a compiled bulk update, each chunk on a connection of its own. -/
def runChunks (size : Nat) (request : Option BulkUpdate) : Attempt (Handle σ) Error BulkReport :=
  request.elim (pure {}) fun b => BulkReport.overChunks (fun chunk => withConnection fun c =>
    Connection.updateChunk c b chunk) {} (b.chunks size)

/-- Executes a compiled bulk update of a suspended caller. -/
def Async.runChunks (size : Nat) (request : Option BulkUpdate) :
    Attempt (Timed (Handle σ)) Error BulkReport :=
  request.elim (pure {}) fun b => updateChunks b {} (b.chunks size)

theorem Async.bulkUpdate_tracked (t : Timed (Handle σ)) (table : String) (rows : List RowValues)
    (keys : List String) (asked : Option Nat) :
    (Async.bulkUpdate table rows keys asked).outcome t =
      (Tracker.tracked table .bulkUpdate (BulkUpdate.compile t.state.catalog.current table rows keys
        (asked.getD t.state.settings.defaultChunkSize))
        (Async.runChunks (asked.getD t.state.settings.defaultChunkSize))).outcome t := by
  refine congrArg (fun next => (Tracker.tracked table .bulkUpdate (BulkUpdate.compile
    t.state.catalog.current table rows keys (asked.getD t.state.settings.defaultChunkSize))
      next).outcome t) (funext fun request => ?_)
  cases request <;> rfl

/-- A change on a handle that borrows a connection, is compiled and executed on it while a tracker
follows, and gives it back. Where no connection can be borrowed there is no tracker. -/
structure FollowsOnLoan (table : String) (operation : Operation) (compiled : Except Error β)
    (run : Nat → β → Attempt σ Error α) (change : Attempt (Handle σ) Error α) (h : Handle σ) :
    Prop where
  refused : ∀ e g, acquire.outcome h = (.error e, g) → change.outcome h = (.error e, g)
  lent : ∀ c g, acquire.outcome h = (.ok c, g) → ∃ onLoan,
    Tracker.Follows table operation compiled (run c) onLoan g.store ∧
      change.outcome h = ((onLoan.outcome g.store).1,
        release c { g with store := (onLoan.outcome g.store).2 })

theorem followsOnLoan_withSession {h : Handle σ} {run : Nat → β → Attempt σ Error α}
    {work : Session → Attempt σ Error α}
    (each : ∀ c, work ⟨c, h.catalog.current⟩ =
      Tracker.tracked table operation compiled (run c)) :
    FollowsOnLoan table operation compiled run (withSession work) h := by
  have borrowed : (withSession work).outcome h = (withConnection fun c =>
      Tracker.tracked table operation compiled (run c)).outcome h := by
    rw [← funext each]
    rfl
  constructor
  · intro e g refused
    rw [borrowed, withConnection, Attempt.outcome_bind, refused]
  · intro c g lent
    refine ⟨_, Tracker.follows_tracked (run c) g.store, ?_⟩
    rw [borrowed, withConnection, Attempt.outcome_bind, lent]
    rfl

/-- A change of a suspended caller that opens a session, is compiled and executed in it while a
tracker follows, and drops it. -/
structure FollowsInSession (table : String) (operation : Operation) (compiled : Except Error β)
    (run : AsyncSession → β → Attempt (Timed σ) Error α)
    (change : Attempt (Timed (Handle σ)) Error α) (t : Timed (Handle σ)) : Prop where
  refused : ∀ e u, Async.openSession.outcome t = (.error e, u) → change.outcome t = (.error e, u)
  opened : ∀ s u, Async.openSession.outcome t = (.ok s, u) → ∃ inside,
    Tracker.Follows table operation compiled (run s) inside ⟨u.state.store, u.fates⟩ ∧
      change.outcome t = ((inside.outcome ⟨u.state.store, u.fates⟩).1,
        ⟨Async.drop s { u.state with store := (inside.outcome ⟨u.state.store, u.fates⟩).2.state },
          (inside.outcome ⟨u.state.store, u.fates⟩).2.fates⟩)

/-- A session is opened with the snapshot that is in force. -/
theorem Async.openSession_snapshot (t : Timed (Handle σ)) : Async.openSession.Ends t
    (fun s _ => s.snapshot = t.state.catalog.current) fun _ _ => True := by
  have kin := acquire_kin (h := t.state) t.state ⟨rfl, rfl, rfl⟩
  have borrowed : (Timed.lift acquire : Attempt (Timed (Handle σ)) Error Nat).Ends t
      (fun _ u => u.state.catalog = t.state.catalog) fun _ _ => True :=
    .onPart ((Attempt.Ends.itself _ _).mono (fun _ _ ended => by rw [ended] at kin; exact kin.catalog)
      fun _ _ _ => trivial)
  unfold openSession
  refine borrowed.bind (fun c u same => ?_) fun _ _ _ => trivial
  exact .after rfl (.after rfl (.pure (congrArg Catalog.current same)))

theorem followsInSession_withSession {t : Timed (Handle σ)}
    {run : AsyncSession → β → Attempt (Timed σ) Error α}
    {work : AsyncSession → Attempt (Timed σ) Error α}
    (each : ∀ s : AsyncSession, s.snapshot = t.state.catalog.current →
      work s = Tracker.tracked table operation compiled (run s)) :
    FollowsInSession table operation compiled run (Async.withSession work) t := by
  constructor
  · intro e u refused
    rw [Async.withSession, Attempt.outcome_bind, refused]
  · intro s u opened
    have snapshot := (Async.openSession_snapshot t).holds_ok opened
    refine ⟨_, Tracker.follows_tracked (run s) ⟨u.state.store, u.fates⟩, ?_⟩
    rw [Async.withSession, Attempt.outcome_bind, opened]
    dsimp only
    rw [each s snapshot]
    unfold Async.onStore Timed.onPart
    rfl

end Handle

end Machine

/-- Trackers keep to the phases whatever they are told, and follow every change of a table from its
compilation to its end without altering its outcome. A suspended caller may wait in vain for what is
executed; then this is the outcome that the tracker is told. -/
theorem trackers_follow_changes :
    (∀ (table : String) (operation : Operation),
      (Tracker.new table operation).phase = .pending ∧
        (Tracker.start table operation).phase = .compiling) ∧
    (∀ (t : Tracker) (calls : List Tracker.Call), t.Course calls) ∧
    (∀ (s : Session) (store : Store) (table : String),
      (∀ rows, Tracker.Follows table .insert (Insert.compile s.snapshot table rows)
        (Connection.insert s.connection) (s.insert table rows) store) ∧
      (∀ set filter, Tracker.Follows table .update (Update.compile s.snapshot table set filter)
        (Connection.update s.connection) (s.update table set filter) store) ∧
      (∀ filter, Tracker.Follows table .delete (Delete.compile s.snapshot table filter)
        (Connection.delete s.connection) (s.delete table filter) store) ∧
      ∀ rows keys size, Tracker.Follows table .bulkUpdate
        (BulkUpdate.compile s.snapshot table rows keys size)
        (Session.runChunks s.connection size) (s.bulkUpdate table rows keys size) store) ∧
    (∀ (s : AsyncSession) (t : Timed Store) (table : String),
      (∀ rows, Tracker.Follows table .insert (Insert.compile s.snapshot table rows)
        (fun i => s.run (Connection.insert s.connection i)) (s.insert table rows) t) ∧
      (∀ set filter, Tracker.Follows table .update (Update.compile s.snapshot table set filter)
        (fun u => s.run (Connection.update s.connection u)) (s.update table set filter) t) ∧
      (∀ filter, Tracker.Follows table .delete (Delete.compile s.snapshot table filter)
        (fun d => s.run (Connection.delete s.connection d)) (s.delete table filter) t) ∧
      ∀ rows keys size, Tracker.Follows table .bulkUpdate
        (BulkUpdate.compile s.snapshot table rows keys size)
        (fun request => s.runToCompletion (Session.runChunks s.connection size request))
        (s.bulkUpdate table rows keys size) t) ∧
    (∀ (h : Handle) (table : String),
      (∀ rows, Handle.FollowsOnLoan table .insert (Insert.compile h.catalog.current table rows)
        Connection.insert (Handle.insert table rows) h) ∧
      (∀ set filter, Handle.FollowsOnLoan table .update
        (Update.compile h.catalog.current table set filter)
        Connection.update (Handle.update table set filter) h) ∧
      (∀ filter, Handle.FollowsOnLoan table .delete
        (Delete.compile h.catalog.current table filter)
        Connection.delete (Handle.delete table filter) h) ∧
      ∀ rows keys asked, Tracker.Follows table .bulkUpdate
        (BulkUpdate.compile h.catalog.current table rows keys
          (asked.getD h.settings.defaultChunkSize))
        (Handle.runChunks (asked.getD h.settings.defaultChunkSize))
        (Handle.bulkUpdate table rows keys asked) h) ∧
    ∀ (t : Timed Handle) (table : String),
      (∀ rows, Handle.FollowsInSession table .insert
        (Insert.compile t.state.catalog.current table rows)
        (fun s i => s.run (Connection.insert s.connection i)) (Handle.Async.insert table rows) t) ∧
      (∀ set filter, Handle.FollowsInSession table .update
        (Update.compile t.state.catalog.current table set filter)
        (fun s u => s.run (Connection.update s.connection u))
        (Handle.Async.update table set filter) t) ∧
      (∀ filter, Handle.FollowsInSession table .delete
        (Delete.compile t.state.catalog.current table filter)
        (fun s d => s.run (Connection.delete s.connection d)) (Handle.Async.delete table filter) t) ∧
      ∀ rows keys asked, Tracker.Follows table .bulkUpdate
        (BulkUpdate.compile t.state.catalog.current table rows keys
          (asked.getD t.state.settings.defaultChunkSize))
        (Handle.Async.runChunks (asked.getD t.state.settings.defaultChunkSize))
        (Handle.Async.bulkUpdate table rows keys asked) t := by
  refine ⟨fun _ _ => ⟨rfl, rfl⟩, Tracker.course, fun s store table => ?sessions,
    fun s t table => ?suspended, fun h table => ?handles, fun t table => ?loans⟩
  case sessions =>
    refine ⟨fun _ => Tracker.follows_tracked _ _, fun _ _ => Tracker.follows_tracked _ _,
      fun _ => Tracker.follows_tracked _ _, fun rows keys size => ?_⟩
    rw [Session.bulkUpdate_eq_tracked]
    exact Tracker.follows_tracked _ _
  case suspended =>
    refine ⟨fun _ => Tracker.follows_tracked _ _, fun _ _ => Tracker.follows_tracked _ _,
      fun _ => Tracker.follows_tracked _ _, fun rows keys size => ?_⟩
    rw [AsyncSession.bulkUpdate_eq_tracked]
    exact Tracker.follows_tracked _ _
  case handles =>
    refine ⟨fun rows => ?_, fun set filter => ?_, fun filter => ?_, fun rows keys asked => ?_⟩
    · rw [Handle.insert_eq]
      exact Handle.followsOnLoan_withSession fun _ => rfl
    · rw [Handle.update_eq]
      exact Handle.followsOnLoan_withSession fun _ => rfl
    · rw [Handle.delete_eq]
      exact Handle.followsOnLoan_withSession fun _ => rfl
    · exact .congr (Handle.bulkUpdate_tracked h table rows keys asked) (Tracker.follows_tracked _ h)
  case loans =>
    refine ⟨fun rows => ?_, fun set filter => ?_, fun filter => ?_, fun rows keys asked => ?_⟩
    · refine Handle.followsInSession_withSession fun s same => ?_
      rw [← same]
      rfl
    · refine Handle.followsInSession_withSession fun s same => ?_
      rw [← same]
      rfl
    · refine Handle.followsInSession_withSession fun s same => ?_
      rw [← same]
      rfl
    · exact .congr (Handle.Async.bulkUpdate_tracked t table rows keys asked)
        (Tracker.follows_tracked _ t)

/-- An insert that no compiler accepts is refused for want of a connection, so that its outcome is
not the error of its compilation, and nothing has been executed of which it could be the outcome. -/
theorem insert_refused_kennel :
    Handle.acquire.outcome busyKennel = (.error (.poolExhausted 1 1), busyKennel) ∧
    Insert.compile busyKennel.catalog.current "cats" (.single (petOf (.text "Tom") 1)) =
      .error (.unknownTable "cats") ∧
    (Handle.insert "cats" (.single (petOf (.text "Tom") 1))).outcome busyKennel =
      (.error (.poolExhausted 1 1), busyKennel) ∧
    ∀ run, ¬ Tracker.Follows "cats" .insert
      (Insert.compile busyKennel.catalog.current "cats" (.single (petOf (.text "Tom") 1))) run
      (Handle.insert "cats" (.single (petOf (.text "Tom") 1))) busyKennel := by
  have rejected : Insert.compile busyKennel.catalog.current "cats"
      (.single (petOf (.text "Tom") 1)) = .error (.unknownTable "cats") := rfl
  have refused : (Handle.insert "cats" (.single (petOf (.text "Tom") 1))).outcome busyKennel =
      (.error (.poolExhausted 1 1), busyKennel) := rfl
  refine ⟨rfl, rejected, refused, fun run follows => ?_⟩
  have claimed := congrArg Prod.fst (follows.rejected _ rejected)
  rw [refused] at claimed
  cases claimed

end TableAccess
