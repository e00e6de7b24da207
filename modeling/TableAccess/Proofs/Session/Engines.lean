import TableAccess.Proofs.Session.Indistinct
import TableAccess.Proofs.Session.Scope
import TableAccess.Session.Script

/-!
# Both engines

Callers that wait and callers that are suspended are served by different code: a waiting caller
works in brackets on a connection that is rolled back when it comes back, a suspended one in a
session that begins, commits and rolls back by itself and keeps a note of it. As long as nobody else
uses their stores and all is done in time, both come to the same. Nothing of how they set their
connections up and take them back can be seen in an answer or in what is left of a store.
-/

namespace TableAccess

open Attempt (Respects)
open Machine (Blind Indistinct)
open Timed (Matches)

variable {σ α : Type} [Machine σ]

/-! ## Brackets of suspended callers -/

namespace AsyncSession

/-- A bracket of single steps: a transaction is begun, and committed or undone as its body turned
out. -/
def bracket (s : AsyncSession) (mode : Mode) (body : Attempt (Timed σ) Error α) :
    Attempt (Timed σ) Error α := do
  let begun ← s.begin mode
  let outcome ← body.observe
  let (result, _) ← begun.leave outcome
  Attempt.ofExcept result

/-- In time a step has the outcome that it has without a limit. -/
theorem run_outcome (s : AsyncSession) (work : Attempt σ Error α) (t : σ) :
    (s.run work).outcome ⟨t, []⟩ = ((work.outcome t).1, ⟨(work.outcome t).2, []⟩) :=
  (s.run_awaits work).outcome_inTime t

theorem begin_outcome (s : AsyncSession) (mode : Mode) (t : σ) :
    (s.begin mode).outcome ⟨t, []⟩ =
      (((Connection.begin s.connection mode).outcome t).1.map fun _ =>
          { s with transactionOpen := true },
        ⟨((Connection.begin s.connection mode).outcome t).2, []⟩) := by
  unfold begin
  rw [Attempt.outcome_bind, run_outcome]
  cases (Connection.begin s.connection mode : Attempt σ Error Unit).outcome t with
  | mk result next => cases result <;> rfl

/-- Undoing a transaction quietly leaves what undoing it leaves. -/
theorem rollbackQuietly_outcome (s : AsyncSession) (t : σ) : ∃ left : AsyncSession,
    left.connection = s.connection ∧ s.rollbackQuietly.outcome ⟨t, []⟩ =
      (.ok left, ⟨((Connection.rollback s.connection).outcome t).2, []⟩) := by
  unfold rollbackQuietly
  rw [Attempt.outcome_bind, Attempt.outcome_observe, run_outcome]
  cases (Connection.rollback s.connection : Attempt σ Error Unit).outcome t with
  | mk result next =>
      cases result with
      | ok _ => exact ⟨{ s with transactionOpen := false }, rfl, rfl⟩
      | error e => exact ⟨s, rfl, rfl⟩

/-- The single steps end a transaction as the end of a bracket does. -/
theorem leave_outcome (s : AsyncSession) (outcome : Except Error α) (t : σ) :
    ∃ left : AsyncSession, left.connection = s.connection ∧ (s.leave outcome).outcome ⟨t, []⟩ =
      (.ok (((Connection.conclude s.connection outcome).outcome t).1, left),
        ⟨((Connection.conclude s.connection outcome).outcome t).2, []⟩) := by
  have undone (e : Error) (u : σ) : ∃ left : AsyncSession, left.connection = s.connection ∧
      (do let left ← s.rollbackQuietly
          pure ((.error e : Except Error α), left)).outcome ⟨u, []⟩ =
        (.ok (((Connection.fail s.connection e : Attempt σ Error α).outcome u).1, left),
          ⟨((Connection.fail s.connection e : Attempt σ Error α).outcome u).2, []⟩) := by
    obtain ⟨left, same, ended⟩ := s.rollbackQuietly_outcome u
    refine ⟨left, same, ?_⟩
    rw [Attempt.outcome_bind, ended]
    rfl
  cases outcome with
  | error e => exact undone e t
  | ok v =>
      unfold leave commit Connection.conclude
      rw [Attempt.outcome_bind, Attempt.outcome_observe, Attempt.outcome_bind, run_outcome,
        Attempt.outcome_bind, Attempt.outcome_observe]
      cases (Connection.commit s.connection : Attempt σ Error Unit).outcome t with
      | mk result next =>
          cases result with
          | ok _ => exact ⟨{ s with transactionOpen := false }, rfl, rfl⟩
          | error e => exact undone e next

/-- A bracket of single steps is one that looks for an open transaction where none is open. -/
theorem bracket_inTime (s : AsyncSession) {t : σ}
    (closed : Machine.isOpen t s.connection = false) (mode : Mode) (body : Attempt σ Error α) :
    (Timed.inTime (s.bracket mode (Timed.lift body))).outcome t =
      (Connection.inTransaction s.connection mode body).outcome t := by
  unfold Timed.inTime bracket Connection.inTransaction
  rw [Attempt.outcome_onPart, Attempt.outcome_bind, begin_outcome, Attempt.outcome_bind,
    Connection.enter_closed closed, Attempt.outcome_bind]
  cases (Connection.begin s.connection mode : Attempt σ Error Unit).outcome t with
  | mk result u =>
      cases result with
      | error e => rfl
      | ok _ =>
          obtain ⟨left, -, ended⟩ :=
            leave_outcome { s with transactionOpen := true } (body.outcome u).1 (body.outcome u).2
          unfold Timed.lift
          dsimp only [Except.map]
          rw [Attempt.outcome_bind, Attempt.outcome_observe, Attempt.outcome_onPart]
          dsimp only
          rw [Attempt.outcome_bind, ended]
          rfl

end AsyncSession

/-! ## Handles -/

namespace Handle

/-- Two handles around the same catalog whose only connection, idle or lent, cannot tell their
stores apart. -/
structure Alike (alike : σ → σ → Prop) (idle : List Nat) (h g : Handle σ) : Prop where
  settings : g.settings = h.settings
  catalog : g.catalog = h.catalog
  pool : g.pool = h.pool
  idle : h.pool.idle = idle
  store : alike h.store g.store

/-- Two handles whose only connection is lent. -/
abbrev Lent (alike : σ → σ → Prop) : Handle σ → Handle σ → Prop := Alike alike []

/-- Two handles whose only connection is idle and has no transaction open. -/
structure Twins (alike : σ → σ → Prop) (c : Nat) (h g : Handle σ) : Prop
    extends Alike alike [c] h g where
  closed : Machine.isOpen h.store c = false

variable {c : Nat} {alike : σ → σ → Prop} {h g : Handle σ}

omit [Machine σ] in
theorem onStore_respects {a : Attempt σ Error α} (respects : a.Respects alike) :
    (onStore a).Respects (Lent alike) :=
  respects.onPart (fun _ _ lent => lent.store) fun _ _ _ _ lent kept =>
    ⟨lent.settings, lent.catalog, lent.pool, lent.idle, kept⟩

variable (laws : Indistinct c alike)

/-! ### Lending the only connection -/

/-- A handle after it has lent its only connection. -/
structure Lends (alike : σ → σ → Prop) (h next : Handle σ) : Prop where
  settings : next.settings = h.settings
  catalog : next.catalog = h.catalog
  pool : next.pool = { h.pool with idle := [] }
  store : alike h.store next.store

include laws

/-- Either engine lends the idle connection; the one sets it up again. -/
theorem acquire_lends_only (alone : alike h.store h.store) (idle : h.pool.idle = [c]) :
    (acquire : Attempt (Handle σ) Error Nat).Ends h (fun d next => d = c ∧ Lends alike h next)
      fun _ _ => False := by
  refine acquire_of_cases ?_ ?_ ?_
  · intro _ d rest found
    obtain ⟨rfl, rfl⟩ := List.cons.inj (found.symm.trans idle)
    exact ⟨rfl, rfl, rfl, rfl, alone⟩
  · exact fun _ none => (List.cons_ne_nil _ _ (idle.symm.trans none)).elim
  · intro _
    rw [idle]
    refine lendAnswering_of_cases ?_ ?_ ?_
    · exact fun none => (List.cons_ne_nil _ _ (idle.symm.trans none)).elim
    · intro d rest found silent
      obtain ⟨rfl, rfl⟩ := List.cons.inj (found.symm.trans idle)
      exact nomatch (laws.answers alone).symm.trans silent
    · intro d rest found _
      obtain ⟨rfl, rfl⟩ := List.cons.inj (found.symm.trans idle)
      obtain ⟨t, ended, same⟩ := laws.configure alone
      exact configured_of_ends (.mapError (.of_eq_ok ended ⟨rfl, rfl, rfl, rfl, same⟩))

/-- Handles that are alike lend the same connection, and are alike then. -/
theorem acquire_agrees (twins : Twins alike c h g) :
    (acquire : Attempt (Handle σ) Error Nat).AgreesOn h g fun result u v =>
      result = .ok c ∧ Lent alike u v ∧ Machine.isOpen u.store c = false := by
  obtain ⟨_, u, first, rfl, left⟩ :=
    (acquire_lends_only laws (laws.left twins.store) twins.idle).exists_ok
  obtain ⟨_, v, second, rfl, right⟩ :=
    (acquire_lends_only laws (laws.right twins.store) (twins.pool ▸ twins.idle)).exists_ok
  refine .of_eq first second ⟨rfl, ⟨?_, ?_, ?_, ?_, ?_⟩, ?_⟩
  · exact right.settings.trans (twins.settings.trans left.settings.symm)
  · exact right.catalog.trans (twins.catalog.trans left.catalog.symm)
  · rw [left.pool, right.pool, twins.pool]
  · rw [left.pool]
  · exact laws.trans (laws.symm left.store) (laws.trans twins.store right.store)
  · exact (laws.isOpen left.store).trans twins.closed

omit [Machine σ] laws in
/-- The only connection comes back, and is the next one to be lent. -/
theorem giveBack_only (lent : h.pool.idle = []) :
    giveBack c h = { h with pool := { h.pool with idle := [c] } } := by
  unfold giveBack Pool.keep
  rw [lent]
  cases h.engine.order <;> rfl

omit laws in
theorem giveBack_twins (lent : Lent alike h g) (closed : Machine.isOpen h.store c = false) :
    Twins alike c (giveBack c h) (giveBack c g) := by
  rw [giveBack_only lent.idle, giveBack_only (lent.pool ▸ lent.idle)]
  refine ⟨⟨lent.settings, lent.catalog, ?_, rfl, lent.store⟩, closed⟩
  rw [lent.pool]

/-- Without a transaction it does not matter that a connection is rolled back when it comes back. -/
theorem settle_closed (closed : Machine.isOpen h.store c = false) : settle c h = giveBack c h :=
  settle_eq_giveBack (Attempt.outcome_renamed (laws.rollback_closed closed))

theorem release_closed_eq (closed : Machine.isOpen h.store c = false) :
    release c h = giveBack c h :=
  release_eq_giveBack (Attempt.outcome_renamed (laws.rollback_closed closed))

theorem release_twins (lent : Lent alike h g) (closed : Machine.isOpen h.store c = false) :
    Twins alike c (release c h) (release c g) := by
  rw [release_closed_eq laws closed,
    release_closed_eq laws ((laws.isOpen lent.store).trans closed)]
  exact giveBack_twins lent closed

/-- Blind work on a connection without a transaction leaves none open. -/
theorem onStore_agrees {a : Attempt σ Error α} (blind : Blind c alike a) (lent : Lent alike h g)
    (closed : Machine.isOpen h.store c = false) : (onStore a).AgreesOn h g
      fun _ u v => Lent alike u v ∧ Machine.isOpen u.store c = false := by
  obtain ⟨same, kept⟩ := onStore_respects blind.respects h g lent
  exact ⟨same, kept, blind.closed (laws.left lent.store) closed⟩

theorem withConnection_respects {work : Nat → Attempt σ Error α}
    (blind : Blind c alike (work c)) : (withConnection work).Respects (Twins alike c) := by
  intro h g twins
  unfold withConnection
  refine (acquire_agrees laws twins).bind ?_ ?_
  · rintro d u v ⟨same, lent, closed⟩
    cases same
    refine (onStore_agrees laws blind lent closed).observing fun result u v ⟨lent, closed⟩ => ?_
    exact .changing ⟨rfl, release_twins laws lent closed⟩
  · rintro e u v ⟨never, -⟩
    cases never

/-! ### Requests of a handle -/

omit laws in
theorem snapshot_respects :
    (snapshot : Attempt (Handle σ) Error Snapshot).Respects (Twins alike c) :=
  .reading fun _ _ twins => by rw [twins.catalog]

theorem withSession_respects {work : Session → Attempt σ Error α}
    (blind : ∀ current, Blind c alike (work ⟨c, current⟩)) :
    (withSession work).Respects (Twins alike c) :=
  snapshot_respects.bind fun current => withConnection_respects laws (blind current)

theorem onHandle_respects {request : Request} (plain : request.isPlain = true) :
    (request.onHandle : Attempt (Handle σ) Error Reply).Respects (Twins alike c) := by
  cases request with
  | select query =>
      rw [Request.onHandle, select_eq]
      refine (snapshot_respects.bind fun current => ?_).bind fun _ => .pure _
      refine (Respects.ofExcept _).bind fun plan => ?_
      exact withConnection_respects laws (Connection.select_blind laws plan)
  | insert table rows =>
      rw [Request.onHandle, insert_eq]
      refine (withSession_respects laws fun current => ?_).bind fun _ => .pure _
      exact .tracked (Connection.insert_blind laws)
  | update table set filter =>
      rw [Request.onHandle, update_eq]
      refine (withSession_respects laws fun current => ?_).bind fun _ => .pure _
      exact .tracked (Connection.update_blind laws)
  | delete table filter =>
      rw [Request.onHandle, delete_eq]
      refine (withSession_respects laws fun current => ?_).bind fun _ => .pure _
      exact .tracked (Connection.delete_blind laws)
  | bulkUpdate table rows keys asked =>
      rw [Request.onHandle, bulkUpdate_eq_blocking]
      have chunkSize_respects : (chunkSize asked : Attempt (Handle σ) Error Nat).Respects
          (Twins alike c) := .reading fun h g twins => by rw [twins.settings]
      refine (chunkSize_respects.bind fun size => snapshot_respects.bind fun current =>
        Tracker.tracked_respects fun request => ?_).bind fun _ => .pure _
      cases request with
      | none => exact .pure _
      | some b =>
          refine BulkReport.overChunks_respects (fun chunk => ?_) _ _
          exact withConnection_respects laws (Connection.updateChunk_blind laws b chunk)
  | dump table =>
      rw [Request.onHandle, dump_eq]
      exact (withConnection_respects laws (Connection.dump_blind laws table)).bind fun _ => .pure _
  | create new =>
      rw [Request.onHandle, create_eq]
      exact (withConnection_respects laws (Connection.create_blind laws new)).bind fun _ => .pure _
  | catalog => exact snapshot_respects.bind fun _ => .pure _
  | runaway => cases plain
  | fail e => exact .throw e

theorem reload_respects :
    (reload : Attempt (Handle σ) Error Unit).Respects (Twins alike c) := by
  rw [reload_eq]
  refine (withConnection_respects laws (Connection.discover_blind laws)).observe.bind fun found => ?_
  intro h g twins
  refine ⟨?_, ⟨twins.settings, ?_, twins.pool, twins.idle, twins.store⟩, twins.closed⟩
  · exact congrArg (fun catalog => (catalog.reload found).1) twins.catalog
  · exact congrArg (fun catalog => (catalog.reload found).2) twins.catalog

theorem isAlive_respects :
    (isAlive : Attempt (Handle σ) Error Bool).Respects (Twins alike c) := by
  rw [isAlive_eq]
  refine (withConnection_respects laws (Connection.ping_blind laws)).observe.bind fun result => ?_
  cases result with
  | ok _ => exact .pure true
  | error _ => exact .pure false

/-! ### Scopes -/

omit laws in
/-- Either engine begins the transaction of a scope on a connection that has none open. -/
theorem enterScope_outcome (acquired : acquire.outcome h = (.ok c, g))
    (closed : Machine.isOpen g.store c = false) (mode : Mode) : (enterScope mode).outcome h =
      match (Connection.begin c mode : Attempt σ Error Unit).outcome g.store with
      | (.ok _, s) => (.ok ⟨⟨c, g.catalog.current⟩, true⟩, { g with store := s })
      | (.error e, s) => (.error e, release c { g with store := s }) := by
  have kin := acquire_kin (h := h) h ⟨rfl, rfl, rfl⟩
  rw [acquired] at kin
  unfold enterScope byEngine
  rw [Attempt.outcome_bind, Attempt.outcome_reading]
  dsimp only
  cases engine : h.engine with
  | blocking =>
      unfold Blocking.enterScope snapshot onStore
      dsimp only
      rw [Attempt.outcome_bind, acquired]
      dsimp only
      rw [Attempt.outcome_bind, Attempt.outcome_reading]
      dsimp only
      rw [Attempt.outcome_bind, Attempt.outcome_observe, Attempt.outcome_onPart,
        Connection.enter_closed closed, Attempt.outcome_bind]
      cases (Connection.begin c mode : Attempt σ Error Unit).outcome g.store with
      | mk result s => cases result <;> rfl
  | async =>
      have same : g.engine = .async := kin.engine.trans engine
      unfold Timed.inTime Async.enterScope Async.openSession Async.onStore Timed.onPart Timed.lift
      dsimp only
      simp only [Attempt.outcome_onPart, Attempt.outcome_bind, acquired, snapshot,
        Attempt.outcome_reading, Attempt.outcome_pure, Attempt.outcome_observe,
        AsyncSession.begin_outcome]
      cases (Connection.begin c mode : Attempt σ Error Unit).outcome g.store with
      | mk result s =>
          cases result with
          | ok _ => rfl
          | error e =>
              unfold release
              simp only [Except.map, Attempt.outcome_bind, Attempt.outcome_onPart,
                Attempt.outcome_changing, same]
              rfl

theorem drop_closed {s : AsyncSession} (same : s.connection = c)
    (closed : Machine.isOpen h.store c = false) : Async.drop s h = giveBack c h := by
  subst same
  unfold Async.drop
  split
  · exact settle_closed laws closed
  · rfl

/-- Either engine ends the transaction of a scope and gives the connection back without one. -/
theorem leaveScope_outcome (alone : alike h.store h.store) {opened : Scope}
    (same : opened.session.connection = c) (began : opened.began = true)
    (outcome : Except Error α) : (leaveScope opened outcome).outcome h =
      (((Connection.conclude c outcome).outcome h.store).1,
        giveBack c { h with store := ((Connection.conclude c outcome).outcome h.store).2 }) := by
  have closed := Connection.conclude_closes laws alone outcome
  subst same
  obtain ⟨engine, settings, catalog, pool, store⟩ := h
  unfold leaveScope byEngine
  rw [Attempt.outcome_bind, Attempt.outcome_reading]
  dsimp only
  cases engine with
  | blocking =>
      unfold Blocking.leaveScope onStore Connection.leave
      dsimp only
      rw [if_pos began, Attempt.outcome_bind, Attempt.outcome_observe, Attempt.outcome_onPart]
      dsimp only
      rw [Attempt.outcome_bind, Attempt.outcome_changing]
      dsimp only
      rw [release_closed_eq laws closed]
      rfl
  | async =>
      obtain ⟨left, connection, ended⟩ := AsyncSession.leave_outcome
        (opened.suspended settings.operationTimeout) outcome store
      unfold Timed.inTime Async.leaveScope Async.onStore Timed.onPart Timed.lift
      dsimp only
      simp only [Attempt.outcome_onPart, Attempt.outcome_bind, Attempt.outcome_reading, ended,
        Attempt.outcome_changing, Attempt.outcome_ofExcept]
      exact congrArg _ (drop_closed laws connection closed)

theorem enterScope_agrees (twins : Twins alike c h g) (mode : Mode) :
    (enterScope mode : Attempt (Handle σ) Error Scope).AgreesOn h g fun result u v =>
      match result with
      | .ok opened => opened.session.connection = c ∧ opened.began = true ∧ Lent alike u v
      | .error _ => Twins alike c u v := by
  obtain ⟨_, u, v, first, second, rfl, lent, closed⟩ := (acquire_agrees laws twins).exists_outcome
  have left := enterScope_outcome first closed mode
  have right := enterScope_outcome second ((laws.isOpen lent.store).trans closed) mode
  obtain ⟨result, s, t, begun, begun', same⟩ :=
    (Connection.begin_respects laws mode _ _ lent.store).exists_outcome
  have kept {s t : σ} (same : alike s t) : Lent alike { u with store := s } { v with store := t } :=
    ⟨lent.settings, lent.catalog, lent.pool, lent.idle, same⟩
  rw [begun] at left
  have snapshots : v.catalog.current = u.catalog.current := by rw [lent.catalog]
  rw [begun', snapshots] at right
  cases result with
  | ok _ => exact .of_eq left right ⟨rfl, rfl, kept same⟩
  | error e =>
      have refused : (Connection.begin c mode : Attempt σ Error Unit).Ends u.store (fun _ _ => True)
          fun _ t => Machine.isOpen t c = false :=
        .mapError (laws.begin_failed mode (laws.left lent.store) closed)
      exact .of_eq left right (release_twins laws (kept same) (refused.holds_error begun))

theorem leaveScope_agrees (lent : Lent alike h g) {opened : Scope}
    (same : opened.session.connection = c) (began : opened.began = true)
    (outcome : Except Error α) :
    (leaveScope opened outcome).AgreesOn h g fun _ => Twins alike c := by
  obtain ⟨result, s, t, ended, ended', kept⟩ :=
    (Connection.conclude_respects laws outcome _ _ lent.store).exists_outcome
  have closed := Connection.conclude_closes laws (laws.left lent.store) outcome
  have left := leaveScope_outcome laws (laws.left lent.store) same began outcome
  have right := leaveScope_outcome laws (laws.right lent.store) same began outcome
  rw [ended] at left closed
  rw [ended'] at right
  refine .of_eq left right (giveBack_twins ?_ closed)
  exact ⟨lent.settings, lent.catalog, lent.pool, lent.idle, kept⟩

theorem serve_respects {opened : Scope} (same : opened.session.connection = c) {request : Request}
    (plain : request.isPlain = true) :
    (opened.serve request : Attempt (Handle σ) Error Reply).Respects (Lent alike) := by
  subst same
  rw [Scope.serve_eq]
  refine (Respects.reading fun h g lent => lent.settings).bind fun settings => ?_
  exact onStore_respects (request.inSession_respects opened.session laws settings plain)

theorem run_respects {opened : Scope} (same : opened.session.connection = c) {work : Work α}
    (plain : work.IsPlain) : (work.run opened : Attempt (Handle σ) Error α).Respects
      (Lent alike) := by
  subst same
  rw [Work.run_eq]
  refine (Respects.reading fun h g lent => lent.settings).bind fun settings => ?_
  exact onStore_respects (work.inSession_respects opened.session laws settings plain)

/-- A scope of some body that cannot tell the handles apart. -/
theorem scope_respects (mode : Mode) {body : Scope → Attempt (Handle σ) Error α}
    (respects : ∀ opened : Scope, opened.session.connection = c →
      (body opened).Respects (Lent alike)) : (scope mode body).Respects (Twins alike c) := by
  intro h g twins
  unfold scope
  refine (enterScope_agrees laws twins mode).bind ?_ fun _ _ _ kept => kept
  rintro opened u v ⟨same, began, lent⟩
  refine (respects opened same u v lent).observing fun result u v lent => ?_
  exact leaveScope_agrees laws lent same began result

end Handle

/-! ## Scripts -/

/-- A step inside a scope that uses nothing but its session. -/
def ScopeStep.isPlain : ScopeStep → Bool
  | request asked => asked.isPlain
  | outer _ => false

/-- A step of which nobody waits in vain: its requests end by themselves, it is not given up, and
no scope needs a second connection. -/
def Step.isPlain : Step → Bool
  | request asked => asked.isPlain
  | scope _ options steps => !options.cancelled && steps.all ScopeStep.isPlain
  | _ => true

open Handle (Lent Twins)

variable {c : Nat} {alike : σ → σ → Prop} (laws : Indistinct c alike) {h g : Handle σ}

include laws

theorem ScopeStep.runAll_agrees {opened : Scope} (same : opened.session.connection = c)
    (options : ScopeOptions) (lent : Lent alike h g) {steps : List ScopeStep}
    (plain : steps.all ScopeStep.isPlain = true) :
    (runAll opened options g steps).1 = (runAll opened options h steps).1 ∧
      (runAll opened options g steps).2.1 = (runAll opened options h steps).2.1 ∧
      Lent alike (runAll opened options h steps).2.2 (runAll opened options g steps).2.2 := by
  induction steps generalizing h g with
  | nil => exact ⟨rfl, rfl, lent⟩
  | cons step rest ih =>
      obtain ⟨first, later⟩ := Bool.and_eq_true_iff.mp plain
      cases step with
      | outer step => cases first
      | request asked =>
          obtain ⟨result, u, v, left, right, kept⟩ :=
            (Handle.serve_respects laws same first h g lent).exists_outcome
          unfold runAll run
          rw [left, right]
          dsimp only
          cases options.failureOf (.reply result) with
          | some e => exact ⟨rfl, rfl, kept⟩
          | none =>
              obtain ⟨answers, outcome, last⟩ := ih kept later
              exact ⟨congrArg (_ :: ·) answers, outcome, last⟩

theorem Step.run_agrees (twins : Twins alike c h g) {step : Step} (plain : step.isPlain = true) :
    (step.run g).1 = (step.run h).1 ∧ Twins alike c (step.run h).2 (step.run g).2 := by
  cases step with
  | request asked =>
      obtain ⟨same, kept⟩ := Handle.onHandle_respects laws plain h g twins
      exact ⟨congrArg Answer.reply same, kept⟩
  | reload =>
      obtain ⟨same, kept⟩ := Handle.reload_respects laws h g twins
      unfold run
      dsimp only
      rw [same, kept.catalog]
      exact ⟨rfl, kept⟩
  | stats => exact ⟨congrArg (fun pool : Pool => Answer.stats pool.stats) twins.pool, twins⟩
  | check =>
      obtain ⟨result, u, v, left, right, kept⟩ :=
        (Handle.isAlive_respects laws h g twins).exists_outcome
      unfold run
      rw [left, right]
      cases result with
      | ok yes => exact ⟨rfl, kept⟩
      | error e => exact ⟨rfl, kept⟩
  | scope mode options steps =>
      obtain ⟨ending, only⟩ := Bool.and_eq_true_iff.mp plain
      rw [Bool.not_eq_true'] at ending
      obtain ⟨result, u, v, left, right, kept⟩ :=
        (Handle.enterScope_agrees laws twins mode).exists_outcome
      unfold run
      rw [left, right]
      cases result with
      | error e => exact ⟨rfl, kept⟩
      | ok opened =>
          obtain ⟨mine, began, lent⟩ := kept
          obtain ⟨answers, outcome, worked⟩ :=
            ScopeStep.runAll_agrees laws mine options lent only
          dsimp only
          rw [ending, answers, outcome]
          obtain ⟨ended, returned⟩ := Handle.leaveScope_agrees laws worked mine began
            (ScopeStep.runAll opened options u steps).2.1
          exact ⟨congrArg (fun e => Answer.scope _ (.finished e)) ended, returned⟩

omit laws

/-- What a caller asks of a handle: a step of a script, or a scope for some work. -/
inductive Call (α : Type) where
  | step (step : Step)
  | scope (mode : Mode) (work : Work α)

namespace Call

def run (h : Handle σ) : Call α → (Answer ⊕ Except Error α) × Handle σ
  | step asked =>
      let (answer, next) := asked.run h
      (.inl answer, next)
  | scope mode work =>
      let (result, next) := (Handle.scope mode fun opened => work.run opened).outcome h
      (.inr result, next)

/-- A call of which nobody waits in vain. -/
def IsPlain : Call α → Prop
  | step asked => asked.isPlain = true
  | scope _ work => work.IsPlain

include laws in
theorem run_agrees (twins : Twins alike c h g) {call : Call α} (plain : call.IsPlain) :
    (call.run g).1 = (call.run h).1 ∧ Twins alike c (call.run h).2 (call.run g).2 := by
  cases call with
  | step asked =>
      obtain ⟨same, kept⟩ := asked.run_agrees laws twins plain
      exact ⟨congrArg Sum.inl same, kept⟩
  | scope mode work =>
      obtain ⟨same, kept⟩ := Handle.scope_respects laws mode
        (fun opened mine => Handle.run_respects laws mine plain) h g twins
      exact ⟨congrArg Sum.inr same, kept⟩

end Call

namespace Handle

def runCalls (h : Handle σ) : List (Call α) → List (Answer ⊕ Except Error α) × Handle σ
  | [] => ([], h)
  | call :: rest =>
      let (answer, next) := call.run h
      let (answers, last) := next.runCalls rest
      (answer :: answers, last)

include laws in
/-- Calls of which nobody waits in vain are answered alike on twins, and leave twins. -/
theorem runCalls_agrees (twins : Twins alike c h g) {calls : List (Call α)}
    (plain : ∀ call ∈ calls, call.IsPlain) :
    (g.runCalls calls).1 = (h.runCalls calls).1 ∧
      Twins alike c (h.runCalls calls).2 (g.runCalls calls).2 := by
  induction calls generalizing h g with
  | nil => exact ⟨rfl, twins⟩
  | cons call rest ih =>
      obtain ⟨answer, kept⟩ := call.run_agrees laws twins (plain call List.mem_cons_self)
      obtain ⟨answers, last⟩ := ih kept fun later member =>
        plain later (List.mem_cons_of_mem call member)
      exact ⟨List.cons_eq_cons.mpr ⟨answer, answers⟩, last⟩

end Handle

namespace Handle

variable {h : Handle}

/-! ## Opening -/

/-- A handle as it is opened: its only connection was set up once and is idle. -/
def opened (engine : Engine) (settings : Settings) (catalog : Catalog) : Handle where
  engine := engine
  settings := settings
  catalog := catalog
  pool := { idle := [0], total := 1, opened := 1 }
  store := ({} : Store).remember 0 Memory.expire

section Opening

variable (engine : Engine) (settings : Settings) (catalog : Catalog)

/-- A handle that has opened no connection yet opens one, if its settings allow any. -/
theorem openConnection_start (positive : settings.maxSize ≠ 0) :
    (openConnection : Attempt Handle Error Nat).outcome { engine, settings, catalog, store := {} } =
      match Location.check settings.connection with
      | .ok _ => (.ok 0,
          { engine, settings, catalog, pool := { total := 1, opened := 1 }, store := {} })
      | .error fault => (.error (engine.openFailure settings.connection fault),
          { engine, settings, catalog, store := {} }) := by
  have limited : ¬ settings.maxSize ≤ 0 := Nat.not_le.mpr (Nat.pos_of_ne_zero positive)
  unfold openConnection onPool Pool.lendNew
  rw [Attempt.outcome_bind, Attempt.outcome_reading]
  dsimp only
  rw [Attempt.outcome_of, Attempt.outcome_of, if_neg limited]
  cases Location.check settings.connection <;> rfl

/-- Either engine sets the first connection up once. -/
theorem acquire_start (positive : settings.maxSize ≠ 0) :
    (acquire : Attempt Handle Error Nat).outcome { engine, settings, catalog, store := {} } =
      match Location.check settings.connection with
      | .ok _ => (.ok 0, { opened engine settings catalog with
          pool := { total := 1, opened := 1 } })
      | .error fault => (.error (engine.openFailure settings.connection fault),
          { engine, settings, catalog, store := {} }) := by
  obtain ⟨refused, opening⟩ : ∃ refused : Nat → Handle → Handle,
      acquire.outcome { engine, settings, catalog, store := {} } =
        (openConnection >>= fun c => configured c (refused c)).outcome
          { engine, settings, catalog, store := {} } := by
    cases engine with
    | blocking => exact ⟨discard, rfl⟩
    | async => exact ⟨release, rfl⟩
  rw [opening, Attempt.outcome_bind, openConnection_start engine settings catalog positive]
  cases Location.check settings.connection <;> rfl

/-- Both engines open the same handles, but that they word it differently if this fails. -/
theorem openWith_eq : openWith engine settings catalog = settings.validate.bind fun _ =>
    ((Location.check settings.connection).mapError
      (engine.openFailure settings.connection)).map fun _ => opened engine settings catalog := by
  unfold openWith
  cases valid : settings.validate with
  | error e => rfl
  | ok _ =>
      have positive : settings.maxSize ≠ 0 := Settings.maxSize_ne_zero valid
      unfold withConnection
      rw [Attempt.outcome_bind, acquire_start engine settings catalog positive]
      cases Location.check settings.connection with
      | ok _ => cases engine <;> rfl
      | error fault => rfl

theorem openWith_eq_ok_iff : openWith engine settings catalog = .ok h ↔
    settings.validate = .ok () ∧ Location.check settings.connection = .ok () ∧
      opened engine settings catalog = h := by
  rw [openWith_eq]
  cases settings.validate with
  | error e => exact ⟨nofun, nofun⟩
  | ok _ =>
      cases Location.check settings.connection with
      | error fault => exact ⟨nofun, nofun⟩
      | ok _ => exact ⟨fun same => ⟨rfl, rfl, Except.ok.inj same⟩, fun ⟨_, _, same⟩ => same ▸ rfl⟩

end Opening

def holding (h : Handle) (db : Database) : Handle :=
  { h with store := { h.store with database := db } }

theorem twins_opened (first second : Engine) (settings : Settings) (catalog : Catalog)
    (db : Database) : Twins (Store.Alike 0) 0 ((opened first settings catalog).holding db)
      ((opened second settings catalog).holding db) := by
  have alone : Store.Alone 0 ((opened first settings catalog).holding db).store :=
    ⟨nofun, Nat.zero_le 1, nofun⟩
  exact ⟨⟨rfl, rfl, rfl, rfl, .refl alone⟩, rfl⟩

/-! ## The engines agree -/

/-- Both engines open a handle in the same cases. On whatever content their stores hold, calls of
which nobody waits in vain are answered in the same way by both, one by one, and leave the same
catalog and the same store. All in which the stores may differ is which of the statements that the
connection keeps it has to match again. So it is with whatever engines and whatever store, as long
as a connection that has it to itself cannot tell apart what looks alike. In particular a bracket
that looks for an open transaction comes to what the single steps of a suspended caller come to,
whatever its body. -/
theorem engines_agree (settings : Settings) (catalog : Catalog) :
    ((∃ h, openWith .blocking settings catalog = .ok h) ↔
      ∃ g, openWith .async settings catalog = .ok g) ∧
    (∀ h g, openWith .blocking settings catalog = .ok h →
      openWith .async settings catalog = .ok g →
      ∀ (α : Type) (db : Database) (calls : List (Call α)), (∀ call ∈ calls, call.IsPlain) →
        let left := (h.holding db).runCalls calls
        let right := (g.holding db).runCalls calls
        right.1 = left.1 ∧ right.2.catalog = left.2.catalog ∧
          { right.2.store with memories := [] } = { left.2.store with memories := [] } ∧
          (right.2.store.memory 0).expire = (left.2.store.memory 0).expire) ∧
    (∀ (σ : Type) [Machine σ] (c : Nat) (alike : σ → σ → Prop) (h g : Handle σ),
      Indistinct c alike → Twins alike c h g →
      ∀ (α : Type) (calls : List (Call α)), (∀ call ∈ calls, call.IsPlain) →
        (g.runCalls calls).1 = (h.runCalls calls).1 ∧
          (g.runCalls calls).2.catalog = (h.runCalls calls).2.catalog ∧
          alike (h.runCalls calls).2.store (g.runCalls calls).2.store) ∧
    ∀ (σ : Type) [Machine σ] (α : Type) (session : AsyncSession) (s : σ) (mode : Mode)
      (body : Attempt σ Error α), Machine.isOpen s session.connection = false →
      (Timed.inTime (session.bracket mode (Timed.lift body))).outcome s =
        (Connection.inTransaction session.connection mode body).outcome s := by
  refine ⟨?opening, ?running, ?machines, ?brackets⟩
  case opening =>
    simp only [openWith_eq_ok_iff]
    constructor
    · exact fun ⟨_, valid, reachable, _⟩ => ⟨_, valid, reachable, rfl⟩
    · exact fun ⟨_, valid, reachable, _⟩ => ⟨_, valid, reachable, rfl⟩
  case running =>
    intro h g blocking async α db calls plain
    obtain ⟨_, _, rfl⟩ := (openWith_eq_ok_iff _ _ _).mp blocking
    obtain ⟨_, _, rfl⟩ := (openWith_eq_ok_iff _ _ _).mp async
    obtain ⟨answers, left⟩ := runCalls_agrees (Store.indistinct 0)
      (twins_opened .blocking .async settings catalog db) plain
    have bare (r : Store) (alone : Store.Alone 0 r) (closed : r.isOpen 0 = false) :
        ({ r with memories := [] } : Store) =
          { database := r.database, statements := r.statements } := by
      rw [alone.transactions_of_closed closed, alone.writer_of_closed closed]
    refine ⟨answers, left.catalog, ?_, left.store.memory⟩
    rw [bare _ left.store.left left.closed,
      bare _ left.store.right (left.store.isOpen.trans left.closed), left.store.database,
      left.store.statements]
  case machines =>
    intro σ _ c alike h g laws twins α calls plain
    obtain ⟨answers, left⟩ := runCalls_agrees laws twins plain
    exact ⟨answers, left.catalog, left.store⟩
  case brackets =>
    exact fun σ _ α session s mode body closed => session.bracket_inTime closed mode body

end Handle

/-! ## Both engines on a pet and its owner -/

/-- The pet is renamed; it is given to nobody, which is undone; and it is renamed once more. -/
def kennelCalls : List (Call Unit) :=
  [.scope .immediate (adoption (.text "Max") 1), .scope .deferred (adoption (.text "Tom") 9),
    .step (.request (.update "pets" (.ofList [("name", .text "Bob")])
      (.entries [("id", .scalar (.int 1))]))),
    .step .reload]

def kennelSession : AsyncSession :=
  { connection := 0
    snapshot := kennelHandle.catalog.current
    limit := kennelHandle.settings.operationTimeout }

theorem engines_agree_kennel : ∃ h g,
    Handle.openWith .blocking kennelHandle.settings kennelHandle.catalog = .ok h ∧
    Handle.openWith .async kennelHandle.settings kennelHandle.catalog = .ok g ∧
    (∀ call ∈ kennelCalls, call.IsPlain) ∧
    ((g.holding (kennel "Rex")).runCalls kennelCalls).1 =
      ((h.holding (kennel "Rex")).runCalls kennelCalls).1 ∧
    ((g.holding (kennel "Rex")).runCalls kennelCalls).2.store.database = kennel "Bob" ∧
    Twins (Store.Alike 0) 0 (h.holding (kennel "Rex")) (g.holding (kennel "Rex")) ∧
    ((g.holding (kennel "Rex")).runCalls kennelCalls).2.catalog =
      ((h.holding (kennel "Rex")).runCalls kennelCalls).2.catalog ∧
    kennelHandle.store.isOpen 0 = false ∧
    (Timed.inTime (kennelSession.bracket .immediate (Timed.lift
        (Connection.dump 0 "pets")))).outcome kennelHandle.store =
      (Connection.inTransaction 0 .immediate (Connection.dump 0 "pets")).outcome
        kennelHandle.store := by
  have plain : ∀ call ∈ kennelCalls, call.IsPlain := by
    simp [kennelCalls, adoption, Call.IsPlain, Work.IsPlain, Step.isPlain, Request.isPlain]
  have twins := Handle.twins_opened .blocking .async kennelHandle.settings kennelHandle.catalog
    (kennel "Rex")
  obtain ⟨_, running, machines, brackets⟩ :=
    Handle.engines_agree kennelHandle.settings kennelHandle.catalog
  obtain ⟨answers, _, _, _⟩ := running _ _ rfl rfl Unit (kennel "Rex") kennelCalls plain
  obtain ⟨_, catalogs, _⟩ := machines Store 0 (Store.Alike 0) _ _ (Store.indistinct 0) twins Unit
    kennelCalls plain
  refine ⟨.opened .blocking kennelHandle.settings kennelHandle.catalog,
    .opened .async kennelHandle.settings kennelHandle.catalog, rfl, rfl, plain, answers, ?_, twins,
    catalogs, rfl, ?_⟩
  · decide +kernel
  · exact brackets Store (List Row) kennelSession kennelHandle.store .immediate _ rfl

end TableAccess
