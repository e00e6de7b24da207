import TableAccess.Proofs.Session.Borrowing
import TableAccess.Proofs.Session.Waiting
import TableAccess.Session.Serving

/-!
# Suspended callers in time

What a suspended caller does comes to what a waiting one does as long as all is done in time. For
one step after the other the two are compared in a state without fates; then every request of a
handle is the same work in a session, whichever way the handle waits.
-/

namespace TableAccess

open Attempt (Ends Keeps)

/-! ## Work without fates -/

namespace Timed

variable {σ τ ε δ α β : Type}

/-- Work with a time limit that comes to some other work if everything is done in time, wherever
something holds that the other work keeps. -/
def Matches (p : σ → Prop) (a : Attempt (Timed σ) ε α) (b : Attempt σ ε α) : Prop :=
  ∀ s, p s → a.outcome ⟨s, []⟩ = ((b.outcome s).1, ⟨(b.outcome s).2, []⟩) ∧ p (b.outcome s).2

namespace Matches

variable {p : σ → Prop} {a : Attempt (Timed σ) ε α} {b : Attempt σ ε α}

theorem outcome_inTime (same : Matches p a b) {s : σ} (holds : p s) :
    (inTime a).outcome s = b.outcome s := by
  unfold inTime
  rw [Attempt.outcome_onPart, (same s holds).1]

theorem lift (keeps : b.Keeps p) : Matches p (Timed.lift b) b := fun s holds => ⟨rfl, keeps s holds⟩

theorem pure (v : α) : Matches p (Pure.pure v : Attempt (Timed σ) ε α) (Pure.pure v) :=
  fun _ holds => ⟨rfl, holds⟩

theorem throw (e : ε) :
    Matches p (MonadExcept.throw e : Attempt (Timed σ) ε α) (MonadExcept.throw e) :=
  fun _ holds => ⟨rfl, holds⟩

theorem ofExcept (result : Except ε α) :
    Matches p (.ofExcept result : Attempt (Timed σ) ε α) (.ofExcept result) :=
  fun _ holds => ⟨rfl, holds⟩

theorem bind {next : α → Attempt (Timed σ) ε β} {other : α → Attempt σ ε β} (first : Matches p a b)
    (rest : ∀ v, Matches p (next v) (other v)) : Matches p (a >>= next) (b >>= other) := by
  intro s holds
  obtain ⟨same, kept⟩ := first s holds
  rw [Attempt.outcome_bind, Attempt.outcome_bind, same]
  cases ended : b.outcome s with
  | mk result t =>
      rw [ended] at kept
      cases result with
      | ok v => exact rest v t kept
      | error e => exact ⟨rfl, kept⟩

theorem observe (same : Matches p a b) :
    Matches p (a.observe : Attempt (Timed σ) δ (Except ε α)) b.observe := by
  intro s holds
  obtain ⟨ended, kept⟩ := same s holds
  refine ⟨?_, kept⟩
  rw [Attempt.outcome_observe, ended]
  rfl

theorem onPart {part : τ → σ} {replace : τ → σ → τ} {q : τ → Prop}
    (same : Matches (fun _ => True) a b) (keeps : ∀ t s, q t → q (replace t s)) :
    Matches q (Timed.onPart part replace a) (b.onPart part replace) := by
  intro t holds
  refine ⟨?_, keeps t _ holds⟩
  unfold Timed.onPart
  rw [Attempt.outcome_onPart, (same (part t) trivial).1]
  rfl

/-- Nobody waits in vain for what is done in time. -/
theorem of_awaits {limit : Nat} {interrupt : σ → σ} {a : Attempt (Timed σ) Error α}
    {b : Attempt σ Error α} (awaits : Awaits limit interrupt a b) : Matches (fun _ => True) a b :=
  fun s _ => ⟨awaits.outcome_inTime s, trivial⟩

theorem tracked {table : String} {operation : Operation} {compiled : Except Error β}
    {run : β → Attempt (Timed σ) Error α} {other : β → Attempt σ Error α}
    (same : ∀ request, Matches p (run request) (other request)) :
    Matches p (Tracker.tracked table operation compiled run)
      (Tracker.tracked table operation compiled other) := by
  intro s holds
  cases compiled with
  | error e => exact ⟨rfl, holds⟩
  | ok request =>
      obtain ⟨ended, kept⟩ := same request s holds
      have whole : (Tracker.tracked table operation (.ok request) run).outcome ⟨s, []⟩ =
          (((⟨table, operation, .executing⟩ : Tracker).finish
            ((run request).outcome ⟨s, []⟩).1).1, ((run request).outcome ⟨s, []⟩).2) := rfl
      rw [whole, ended]
      exact ⟨rfl, kept⟩

end Matches

end Timed

open Timed (Awaits Matches)

/-! ## Work in a session -/

theorem AsyncSession.work_matches {σ α : Type} [Machine σ] (s : AsyncSession) (settings : Settings)
    (limited : s.limit = settings.operationTimeout) (work : Work α) : Matches (fun _ => True)
      (work.inAsyncSession s settings : Attempt (Timed σ) Error α)
      (work.inSession s.waiting settings) := by
  induction work with
  | finish result => exact .ofExcept result
  | call request next ih =>
      exact .bind (Matches.of_awaits (s.inSession_awaits settings limited request)).observe ih

/-! ## Handles -/

namespace Handle

variable {σ α : Type}

variable {h : Handle σ} {c : Nat}

theorem openConnection_kin : (openConnection : Attempt (Handle σ) Error Nat).Keeps h.Kin :=
  .bind (.reading _) fun _ _ kin => ⟨kin.catalog, kin.settings, kin.engine⟩

theorem onStore_kin {a : Attempt σ Error α} : (onStore a).Keeps h.Kin :=
  .onPart fun _ kin => ⟨kin.catalog, kin.settings, kin.engine⟩

def Suspends (h : Handle σ) : Prop := h.engine = .async

theorem suspends_of_kin {a : Attempt (Handle σ) Error α}
    (keeps : ∀ h : Handle σ, a.Keeps h.Kin) : a.Keeps Suspends :=
  fun h suspends => (keeps h h ⟨rfl, rfl, rfl⟩).engine.trans suspends

theorem snapshot_suspends : (snapshot : Attempt (Handle σ) Error Snapshot).Keeps Suspends :=
  .reading _

theorem byEngine_eq {waiting : Attempt (Handle σ) Error α}
    {suspended : Attempt (Timed (Handle σ)) Error α} (same : Matches Suspends suspended waiting) :
    byEngine waiting suspended = waiting := by
  funext h
  have ended : (byEngine waiting suspended).outcome h = waiting.outcome h := by
    unfold byEngine
    rw [Attempt.outcome_bind, Attempt.outcome_reading]
    dsimp only
    cases engine : h.engine with
    | blocking => rfl
    | async => exact same.outcome_inTime engine
  exact ended

/-- What is true of either way to serve a request is true of the one by the engine. -/
theorem byEngine_ends {waiting : Attempt (Handle σ) Error α}
    {suspended : Attempt (Timed (Handle σ)) Error α} {value : α → Handle σ → Prop}
    {error : Error → Handle σ → Prop} (blocking : h.engine = .blocking → waiting.Ends h value error)
    (async : suspended.Ends ⟨h, []⟩ (fun w t => value w t.state) fun e t => error e t.state) :
    (byEngine waiting suspended).Ends h value error := by
  unfold byEngine
  refine .after rfl ?_
  dsimp only
  cases engine : h.engine with
  | blocking => exact blocking engine
  | async => exact .onPart async

theorem install_suspends (found : Except Error Snapshot) :
    (install found : Attempt (Handle σ) Error Unit).Keeps Suspends :=
  fun _ suspends => suspends

variable [Machine σ]

theorem discard_kin {g : Handle σ} (kin : h.Kin g) : h.Kin (discard c g) :=
  ⟨kin.catalog, kin.settings, kin.engine⟩

theorem release_kin {g : Handle σ} (kin : h.Kin g) : h.Kin (release c g) := by
  unfold release
  cases g.engine with
  | async => exact ⟨kin.catalog, kin.settings, kin.engine⟩
  | blocking =>
      unfold settle
      dsimp only
      split
      · exact ⟨kin.catalog, kin.settings, kin.engine⟩
      · exact discard_kin (g := { g with store := _ }) ⟨kin.catalog, kin.settings, kin.engine⟩

theorem configured_kin {refused : Handle σ → Handle σ} (keeps : ∀ g, h.Kin g → h.Kin (refused g)) :
    (configured c refused).Keeps h.Kin := by
  have setUp : (onStore (Connection.configure c) : Attempt (Handle σ) Error Unit).Keeps h.Kin :=
    .onPart fun _ kin => ⟨kin.catalog, kin.settings, kin.engine⟩
  refine .bind setUp.observe fun set => ?_
  cases set with
  | ok _ => exact .pure c
  | error e => exact .bind (.changing keeps) fun _ => .throw e

theorem lendAnswering_kin (count : Nat) :
    (lendAnswering count : Attempt (Handle σ) Error (Option Nat)).Keeps h.Kin := by
  have withPool (p : Pool) : (Attempt.changing fun g : Handle σ => { g with pool := p } :
      Attempt (Handle σ) Error Unit).Keeps h.Kin :=
    .changing fun _ kin => ⟨kin.catalog, kin.settings, kin.engine⟩
  induction count with
  | zero => exact .pure _
  | succ count ih =>
      refine .bind (.reading _) fun pool => ?_
      split
      · exact .pure _
      · refine .bind (withPool _) fun _ => .bind (.reading _) fun s => ?_
        split
        · exact .pure _
        · exact .bind (.changing fun _ => discard_kin) fun _ => ih

/-- Borrowing a connection changes nothing but the pool and the store. -/
theorem acquire_kin : (acquire : Attempt (Handle σ) Error Nat).Keeps h.Kin := by
  have withPool (p : Pool) : (Attempt.changing fun g : Handle σ => { g with pool := p } :
      Attempt (Handle σ) Error Unit).Keeps h.Kin :=
    .changing fun _ kin => ⟨kin.catalog, kin.settings, kin.engine⟩
  refine .bind (.reading _) fun engine => ?_
  cases engine with
  | blocking =>
      refine .bind (.reading _) fun pool => ?_
      split
      · exact .bind (withPool _) fun _ => .pure _
      · exact .bind openConnection_kin fun _ => configured_kin fun _ => discard_kin
  | async =>
      refine .bind (.reading _) fun idle => .bind (lendAnswering_kin idle) fun found => ?_
      cases found with
      | none => exact .bind openConnection_kin fun _ => configured_kin fun _ => release_kin
      | some c => exact configured_kin fun _ => release_kin

theorem withConnection_kin (work : Nat → Attempt σ Error α) : (withConnection work).Keeps h.Kin :=
  .bind acquire_kin fun _ => .bind onStore_kin.observe fun _ =>
    .bind (.changing fun _ => release_kin) fun _ => .ofExcept _

/-! ### Sessions of their own -/

/-- A session of its own is a borrowed connection, which comes back as it is. -/
theorem Async.withSession_matches {work : AsyncSession → Attempt (Timed σ) Error α}
    (plain : Nat → Session → Attempt σ Error α)
    (same : ∀ s, Matches (fun _ => True) (work s) (plain s.limit s.waiting)) :
    Matches Suspends (Async.withSession work) (do
      let limit ← Attempt.reading fun h : Handle σ => h.settings.operationTimeout
      Handle.withSession (plain limit)) := by
  intro h suspends
  refine ⟨?_, suspends_of_kin (fun h => ?_) h suspends⟩
  · have kin := acquire_kin (h := h) h ⟨rfl, rfl, rfl⟩
    unfold Async.withSession Async.openSession Handle.withSession withConnection snapshot
    simp only [Attempt.outcome_bind, Attempt.outcome_reading, Timed.lift, Attempt.outcome_onPart]
    cases ended : acquire.outcome h with
    | mk result g =>
        rw [ended] at kin
        cases result with
        | error e => rfl
        | ok c =>
            obtain ⟨engine, settings, catalog, pool, store⟩ := g
            obtain ⟨rfl, rfl, rfl⟩ := kin
            have worked := (same ⟨c, h.catalog.current, h.settings.operationTimeout, false⟩
              store trivial).1
            unfold Async.onStore Timed.onPart
            simp only [Attempt.outcome_pure, Attempt.outcome_observe, Attempt.outcome_onPart]
            rw [worked]
            unfold release Handle.onStore
            simp only [Attempt.outcome_changing, Attempt.outcome_onPart]
            rw [show h.engine = .async from suspends]
            rfl
  · exact .bind (.reading _) fun limit => .bind (.reading _) fun current => withConnection_kin _

theorem Async.withConnection_matches {work : AsyncSession → Attempt (Timed σ) Error α}
    {plain : Nat → Attempt σ Error α}
    (same : ∀ s, Matches (fun _ => True) (work s) (plain s.connection)) :
    Matches Suspends (Async.withSession work) (withConnection plain) :=
  Async.withSession_matches (fun _ s => plain s.connection) same

/-! ### Requests -/

theorem insert_eq (table : String) (rows : NewRows) :
    (insert table rows : Attempt (Handle σ) Error InsertReport) =
      withSession fun s => s.insert table rows :=
  byEngine_eq (Async.withSession_matches (fun _ s => s.insert table rows) fun s =>
    .of_awaits (s.insert_awaits table rows))

theorem update_eq (table : String) (set : RowValues) (filter : Filter) :
    (update table set filter : Attempt (Handle σ) Error Nat) =
      withSession fun s => s.update table set filter :=
  byEngine_eq (Async.withSession_matches (fun _ s => s.update table set filter) fun s =>
    .of_awaits (s.update_awaits table set filter))

theorem delete_eq (table : String) (filter : Filter) :
    (delete table filter : Attempt (Handle σ) Error Nat) =
      withSession fun s => s.delete table filter :=
  byEngine_eq (Async.withSession_matches (fun _ s => s.delete table filter) fun s =>
    .of_awaits (s.delete_awaits table filter))

theorem select_eq (q : Query) : (select q : Attempt (Handle σ) Error (List Row)) = (do
    let current ← snapshot
    let plan ← Attempt.ofExcept (q.plan current)
    withConnection fun c => Connection.select c plan) :=
  byEngine_eq <| .bind (.lift snapshot_suspends) fun _ => .bind (.ofExcept _) fun _ =>
    Async.withConnection_matches fun s => Matches.of_awaits (s.run_awaits _)

theorem dump_eq (table : String) : (dump table : Attempt (Handle σ) Error (List Row)) =
    withConnection fun c => Connection.dump c table :=
  byEngine_eq (Async.withConnection_matches fun s => Matches.of_awaits (s.run_awaits _))

theorem create_eq (new : NewTable) : (create new : Attempt (Handle σ) Error Nat) =
    withConnection fun c => Connection.create c new :=
  byEngine_eq (Async.withConnection_matches fun s => Matches.of_awaits (s.run_awaits _))

theorem isAlive_eq : (isAlive : Attempt (Handle σ) Error Bool) = Blocking.isAlive := by
  refine byEngine_eq (.bind ?_ fun alive => ?_)
  · exact (Async.withConnection_matches fun s =>
      Matches.of_awaits (s.run_awaits (Connection.ping _))).observe
  · cases alive with
    | ok _ => exact .pure true
    | error _ => exact .pure false

theorem spin_eq : (spin : Attempt (Handle σ) Error α) = Blocking.spin :=
  byEngine_eq (Async.withSession_matches (fun limit s => Connection.spin s.connection limit)
    fun _ => .lift fun _ _ => trivial)

/-- Chunks in sessions of their own are chunks on connections that are borrowed for them. -/
theorem Async.updateChunks_matches (b : BulkUpdate) (report : BulkReport)
    (chunks : List (List RowValues)) : Matches Suspends
      (Async.updateChunks b report chunks : Attempt (Timed (Handle σ)) Error BulkReport)
      (BulkReport.overChunks (fun chunk => withConnection fun c => Connection.updateChunk c b chunk)
        report chunks) := by
  induction chunks generalizing report with
  | nil => exact .pure report
  | cons chunk rest ih =>
      refine .bind ?_ fun affected => ih _
      exact Async.withConnection_matches fun s => .lift fun _ _ => trivial

theorem bulkUpdate_eq_blocking (table : String) (rows : List RowValues) (keys : List String)
    (asked : Option Nat) : (bulkUpdate table rows keys asked : Attempt (Handle σ) Error BulkReport) =
      Blocking.bulkUpdate table rows keys asked := by
  refine byEngine_eq (.bind (.lift (.reading _)) fun size => .bind (.lift snapshot_suspends)
    fun current => .tracked fun request => ?_)
  cases request with
  | none => exact .pure _
  | some b => exact Async.updateChunks_matches b _ _

/-- It does not matter whether a snapshot is put in force before or after the connection over which
it was discovered comes back. -/
theorem reload_eq : (reload : Attempt (Handle σ) Error Unit) = Blocking.reload := by
  refine byEngine_eq fun h suspends => ⟨?_, ?_⟩
  · have kin := acquire_kin (h := h) h ⟨rfl, rfl, rfl⟩
    unfold Async.reload Async.openSession Blocking.reload withConnection
    simp only [Attempt.outcome_bind, Attempt.outcome_observe, Timed.lift, Attempt.outcome_onPart]
    cases ended : acquire.outcome h with
    | mk result g =>
        rw [ended] at kin
        obtain ⟨engine, settings, catalog, pool, store⟩ := g
        obtain ⟨rfl, rfl, rfl⟩ := kin
        cases result with
        | error e => rfl
        | ok c =>
            have awaited := (Awaits.await h.settings.operationTimeout
              (fun g : Handle σ => { g with store := Machine.interrupt c g.store })
              (Async.discoverInto c)).outcome_inTime ⟨h.engine, h.settings, h.catalog, pool, store⟩
            unfold snapshot
            simp only [Attempt.outcome_reading, Attempt.outcome_pure]
            rw [awaited]
            unfold release Async.discoverInto onStore install
            simp only [Attempt.outcome_changing, Attempt.outcome_onPart, Attempt.outcome_bind,
              Attempt.outcome_observe, Attempt.outcome_of]
            rw [show h.engine = .async from suspends]
            rfl
  · have discovers : (withConnection Connection.discover : Attempt (Handle σ) Error Snapshot).Keeps
        Suspends := suspends_of_kin fun h => withConnection_kin _
    exact Keeps.bind discovers.observe install_suspends h suspends

end Handle

/-- Inside a scope too a request of a suspended caller is that of a waiting one. -/
theorem Scope.serve_eq {σ : Type} [Machine σ] (scope : Scope) (request : Request) :
    (scope.serve request : Attempt (Handle σ) Error Reply) = (do
      let settings ← Attempt.reading fun h : Handle σ => h.settings
      Handle.onStore (request.inSession scope.session settings)) := by
  unfold serve
  refine congrArg (_ >>= ·) (funext fun settings => Handle.byEngine_eq ?_)
  exact (Matches.of_awaits ((scope.suspended settings.operationTimeout).inSession_awaits settings rfl
    request)).onPart fun _ _ suspends => suspends

theorem Work.run_eq {σ α : Type} [Machine σ] (scope : Scope) (work : Work α) :
    (work.run scope : Attempt (Handle σ) Error α) = (do
      let settings ← Attempt.reading fun h : Handle σ => h.settings
      Handle.onStore (work.inSession scope.session settings)) := by
  unfold Work.run
  refine congrArg (_ >>= ·) (funext fun settings => Handle.byEngine_eq ?_)
  exact ((scope.suspended settings.operationTimeout).work_matches settings rfl work).onPart
    fun _ _ suspends => suspends

end TableAccess
