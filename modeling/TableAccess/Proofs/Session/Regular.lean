import TableAccess.Proofs.Session.Scope
import TableAccess.Session.Loan

/-!
# Regular handles

A handle that starts on a fresh store finds it regular, and every step of a script leaves it so:
requests, scopes with whatever is done while they are open, and loans on which callers work as they
like. A connection that is given back takes no transaction with it into the pool.
-/

namespace TableAccess

open Attempt (Ends Keeps)
open Machine (Aspect)

/-- A handle from which some connections are lent, with a sound pool and a regular store. -/
structure Handle.Regular (lent : List Nat) (h : Handle) : Prop where
  pool : h.pool.Sound lent
  store : h.store.Regular lent

theorem Handle.Regular.sound {lent : List Nat} {h : Handle} (regular : h.Regular lent) :
    h.Sound lent := by
  refine ⟨regular.pool, regular.store.opened, fun held member => ?_⟩
  obtain ⟨w, writing, rfl⟩ := Option.map_eq_some_iff.mp member
  obtain ⟨t, listed, same⟩ := regular.store.writing w writing
  exact same ▸ regular.store.opened t listed

/-- In which order connections were lent does not count. -/
theorem Handle.Regular.perm {lent others : List Nat} {h : Handle} (regular : h.Regular lent)
    (same : lent.Perm others) : h.Regular others := by
  have whole := same.append_right h.pool.idle
  refine ⟨⟨whole.nodup_iff.mp regular.pool.distinct, fun c member => ?_⟩, ?_⟩
  · exact regular.pool.known c (whole.mem_iff.mpr member)
  · exact regular.store.relend fun t member => same.mem_iff.mp (regular.store.opened t member)

/-! ## Connections -/

namespace Connection

variable {α : Type} {lent : List Nat} {c : Nat}

theorem begin_keeps (loaned : c ∈ lent) (mode : Mode) :
    (begin c mode : Attempt Store Error Unit).Keeps (Store.Regular lent) :=
  .mapError (Store.begin_keeps loaned mode)

theorem commit_keeps : (commit c).Keeps (Store.Regular lent) := .mapError Store.commit_keeps

theorem rollback_keeps : (rollback c).Keeps (Store.Regular lent) := .mapError Store.rollback_keeps

theorem enter_keeps_of {p : Store → Prop} {mode : Mode} (began : (Store.begin c mode).Keeps p) :
    (enter c mode).Keeps p := by
  refine .bind (.reading _) fun joined => ?_
  split
  · exact .pure _
  · exact .bind (.mapError began) fun _ => .pure _

theorem enter_keeps (loaned : c ∈ lent) (mode : Mode) :
    (enter c mode).Keeps (Store.Regular lent) :=
  enter_keeps_of (Store.begin_keeps loaned mode)

theorem fail_keeps (e : Error) : (fail c e : Attempt Store Error α).Keeps (Store.Regular lent) :=
  .bind (.observe rollback_keeps) fun _ => .throw e

theorem conclude_keeps (outcome : Except Error α) :
    (conclude c outcome).Keeps (Store.Regular lent) := by
  cases outcome with
  | error e => exact fail_keeps e
  | ok a =>
      refine .bind (.observe commit_keeps) fun ended => ?_
      cases ended with
      | ok _ => exact .pure a
      | error e => exact fail_keeps e

theorem leave_keeps (began : Bool) (outcome : Except Error α) :
    (leave c began outcome).Keeps (Store.Regular lent) := by
  unfold leave
  split
  · exact conclude_keeps outcome
  · exact .ofExcept outcome

theorem inTransaction_keeps (loaned : c ∈ lent) (mode : Mode) {body : Attempt Store Error α}
    (keeps : body.Keeps (Store.Regular lent)) :
    (inTransaction c mode body).Keeps (Store.Regular lent) :=
  .bind (enter_keeps loaned mode) fun began => .bind (.observe keeps) fun outcome =>
    leave_keeps began outcome

theorem select_keeps (q : Select) : (select c q).Keeps (Store.Regular lent) :=
  .mapError (Store.select_keeps q)

theorem insertRows_keeps (i : Insert) : (insertRows c i).Keeps (Store.Regular lent) :=
  .bind (.mapError (Machine.insert_keeps (Store.takeInsert_keeps i) (Store.insertRow_keeps i)))
    fun _ => .bind (.reading _) fun _ => .pure _

theorem updateChunk_keeps (loaned : c ∈ lent) (b : BulkUpdate) (rows : List RowValues) :
    (updateChunk c b rows).Keeps (Store.Regular lent) :=
  inTransaction_keeps loaned .immediate
    (.mapError (Machine.updateBatch_keeps (Store.takeBulk_keeps b) (Store.updateRow_keeps b) rows))

theorem dump_keeps (table : String) : (dump c table).Keeps (Store.Regular lent) :=
  .mapError (Store.dump_keeps table)

theorem create_keeps (new : NewTable) : (create c new).Keeps (Store.Regular lent) :=
  .mapError (Store.create_keeps new)

theorem discover_keeps : (discover c).Keeps (Store.Regular lent) :=
  .mapError (Store.discover_keeps _)

theorem ping_keeps : (ping c).Keeps (Store.Regular lent) := .mapError Store.announce_keeps

theorem spin_keeps (limit : Nat) :
    (spin c limit : Attempt Store Error α).Keeps (Store.Regular lent) :=
  .bind (.mapError (Store.spin_keeps (by decide))) fun _ => .throw _

end Connection

/-! ## Sessions -/

namespace Session

variable {s : Session} {lent : List Nat}

theorem select_keeps (q : Query) : (s.select q).Keeps (Store.Regular lent) :=
  .bind (.ofExcept _) fun _ => Connection.select_keeps _

theorem insert_keeps (loaned : s.connection ∈ lent) (table : String) (rows : NewRows) :
    (s.insert table rows).Keeps (Store.Regular lent) :=
  Tracker.tracked_keeps fun i _ =>
    Connection.inTransaction_keeps loaned .immediate (Connection.insertRows_keeps i)

theorem update_keeps (loaned : s.connection ∈ lent) (table : String) (set : RowValues)
    (filter : Filter) :
    (s.update table set filter).Keeps (Store.Regular lent) :=
  Tracker.tracked_keeps fun u _ =>
    Connection.inTransaction_keeps loaned .immediate (.mapError (Store.update_keeps u))

theorem delete_keeps (loaned : s.connection ∈ lent) (table : String) (filter : Filter) :
    (s.delete table filter).Keeps (Store.Regular lent) :=
  Tracker.tracked_keeps fun d _ =>
    Connection.inTransaction_keeps loaned .immediate (.mapError (Store.delete_keeps d))

theorem bulkUpdate_keeps (loaned : s.connection ∈ lent) (table : String) (rows : List RowValues)
    (keys : List String) (size : Nat) :
    (s.bulkUpdate table rows keys size).Keeps (Store.Regular lent) := by
  refine Tracker.tracked_keeps fun request _ => ?_
  cases request with
  | none => exact .pure _
  | some b =>
      exact BulkReport.overChunks_keeps
        (fun chunk _ => Connection.updateChunk_keeps loaned b chunk) _

theorem inSession_keeps (loaned : s.connection ∈ lent) (settings : Settings) (request : Request) :
    (request.inSession s settings).Keeps (Store.Regular lent) := by
  cases request with
  | select query => exact .bind (select_keeps query) fun _ => .pure _
  | insert table rows => exact .bind (insert_keeps loaned table rows) fun _ => .pure _
  | update table set filter => exact .bind (update_keeps loaned table set filter) fun _ => .pure _
  | delete table filter => exact .bind (delete_keeps loaned table filter) fun _ => .pure _
  | bulkUpdate table rows keys size =>
      exact .bind (bulkUpdate_keeps loaned table rows keys _) fun _ => .pure _
  | dump table => exact .bind (Connection.dump_keeps table) fun _ => .pure _
  | create new => exact .bind (Connection.create_keeps new) fun _ => .pure _
  | catalog => exact .pure _
  | runaway => exact Connection.spin_keeps _
  | fail e => exact .throw e

end Session

/-! ## The end of a transaction -/

namespace Store

variable {lent : List Nat} {s : Store} {c : Nat}

/-- Without an open transaction a connection need not be lent any more. -/
theorem rollback_returns (regular : s.Regular (c :: lent)) : (rollback c).Ends s
    (fun _ t => t.Regular lent) fun _ t => t.Regular (c :: lent) := by
  unfold rollback
  refine .after rfl ?_
  dsimp only
  split
  · refine (announce_keeps.ends regular).bind (fun _ t kept => ?_) fun _ _ kept => kept
    refine .of_eq_ok rfl (kept.undo fun d member other => ?_)
    exact (List.mem_cons.mp member).resolve_left other
  · rename_i closed
    refine .pure (regular.relend fun t member => ?_)
    refine (List.mem_cons.mp (regular.opened t member)).resolve_left fun own => ?_
    exact closed (isOpen_of_mem member own)

theorem commit_returns (regular : s.Regular (c :: lent)) : (commit c).Ends s
    (fun _ t => t.Regular lent) fun _ t => t.Regular (c :: lent) := by
  unfold commit
  refine (announce_keeps.ends regular).bind (fun _ t kept => ?_) fun _ _ kept => kept
  refine .after rfl ?_
  dsimp only
  have ending : (do
      if 0 < (← Attempt.reading fun s => s.owed c) then throw .foreignKey
      Attempt.changing fun s => s.release c : Attempt Store Fault Unit).Ends t
        (fun _ t => t.Regular lent) fun _ t => t.Regular (c :: lent) := by
    have released : (t.release c).Regular lent :=
      kept.release fun d member other => (List.mem_cons.mp member).resolve_left other
    refine .after rfl ?_
    dsimp only
    split
    · exact .stop rfl kept
    · exact .of_eq_ok rfl released
  split
  · exact ending
  · exact .stop rfl kept

end Store

namespace AsyncSession

variable {lent : List Nat} {s : AsyncSession} {t : Store} {α : Type}

/-- A connection whose session knows of no open transaction need not be lent any more. -/
def Settles (lent : List Nat) (s : AsyncSession) (t : Store) : Prop :=
  t.Regular (if s.transactionOpen then s.connection :: lent else lent)

theorem rollbackQuietly_settles (regular : t.Regular (s.connection :: lent))
    (opened : s.transactionOpen = true) :
    (s.rollbackQuietly : Attempt (Timed Store) Error AsyncSession).Ends ⟨t, []⟩
      (fun left next => left.connection = s.connection ∧ left.Settles lent next.state)
      fun _ _ => False := by
  have undone : (Connection.rollback s.connection : Attempt Store Error Unit).Ends t
      (fun _ next => next.Regular lent) fun _ next => next.Regular (s.connection :: lent) :=
    .mapError (Store.rollback_returns regular)
  unfold rollbackQuietly
  refine .observing (((s.run_awaits _).ends_inTime undone).mono ?_ ?_)
  · exact fun _ _ ⟨kept, _⟩ => .pure ⟨rfl, kept⟩
  · exact fun _ _ ⟨kept, _⟩ => .pure ⟨rfl, by rwa [Settles, if_pos opened]⟩

theorem leave_settles (regular : t.Regular (s.connection :: lent))
    (opened : s.transactionOpen = true) (result : Except Error α) :
    (s.leave result : Attempt (Timed Store) Error (Except Error α × AsyncSession)).Ends ⟨t, []⟩
      (fun ended next => ended.2.connection = s.connection ∧ ended.2.Settles lent next.state)
      fun _ _ => False := by
  have undoing (e : Error) {u : Timed Store} (kept : u.state.Regular (s.connection :: lent))
      (prompt : u.fates = []) : (s.rollbackQuietly >>= fun left => pure (.error e, left) :
        Attempt (Timed Store) Error (Except Error α × AsyncSession)).Ends u
          (fun ended next => ended.2.connection = s.connection ∧ ended.2.Settles lent next.state)
          fun _ _ => False := by
    obtain ⟨store, _⟩ := u
    cases prompt
    refine (rollbackQuietly_settles kept opened).bind ?_ fun _ _ never => never
    exact fun _ _ left => .pure left
  cases result with
  | error e => exact undoing e regular rfl
  | ok w =>
      have committed : (Connection.commit s.connection : Attempt Store Error Unit).Ends t
          (fun _ next => next.Regular lent) fun _ next => next.Regular (s.connection :: lent) :=
        .mapError (Store.commit_returns regular)
      refine .observing (((s.run_awaits _).ends_inTime committed).bind ?_ ?_)
      · exact fun _ _ ⟨kept, _⟩ => .pure (.pure ⟨rfl, kept⟩)
      · exact fun e _ ⟨kept, prompt⟩ => undoing e kept prompt

end AsyncSession

/-! ## Handles -/

namespace Handle

variable {α : Type} {lent : List Nat} {h g : Handle} {c : Nat}

/-! ### Giving back -/

theorem discard_regular (regular : h.Regular (c :: lent)) : (discard c h).Regular lent :=
  ⟨regular.pool.discard, regular.store.undo fun _ member other =>
    (List.mem_cons.mp member).resolve_left other⟩

/-- A connection that is settled has no transaction any more. -/
theorem settle_regular (regular : h.Regular (c :: lent)) : (settle c h).Regular lent := by
  have undone : (Connection.rollback c : Attempt Store Error Unit).Ends h.store
      (fun _ t => t.Regular lent) fun _ t => t.Regular (c :: lent) :=
    .mapError (Store.rollback_returns regular.store)
  unfold settle
  rcases undone.cases with ⟨_, t, ended, kept⟩ | ⟨e, t, ended, kept⟩
  · rw [ended]
    exact ⟨regular.pool.keep _, kept⟩
  · rw [ended]
    exact discard_regular ⟨regular.pool, kept⟩

theorem drop_regular {s : AsyncSession} (pool : h.pool.Sound (s.connection :: lent))
    (settles : s.Settles lent h.store) : (Async.drop s h).Regular lent := by
  unfold AsyncSession.Settles at settles
  unfold Async.drop
  cases opened : s.transactionOpen with
  | true =>
      rw [if_pos opened] at settles
      exact settle_regular ⟨pool, settles⟩
  | false =>
      rw [if_neg (by simp [opened])] at settles
      exact ⟨pool.keep _, settles⟩

/-! ### What is known of a regular handle -/

/-- Seen from the connections that are not lent. -/
def view (lent : List Nat) (h : Handle) : Aspect Store := Store.aspect Store.Regular lent h.store

theorem Regular.settled (regular : h.Regular lent) :
    Settled (h.view lent) lent h.store.database h :=
  ⟨regular.pool, ⟨.refl h.store, regular.store⟩, fun _ fresh => fresh⟩

theorem Regular.laws (regular : h.Regular lent) :
    Machine.Laws (h.view lent) (fun _ => True) fun _ => True :=
  Store.aspect_laws Store.upheld_regular regular.sound.store

theorem After.regular {more : List Nat} {db : Database} (after : After (h.view lent) more h db g)
    (known : ∀ c ∈ lent, c ∈ more) : g.Regular more :=
  ⟨after.pool, after.store.2.relend fun t member => known _ (after.store.2.opened t member)⟩

/-- Whatever is done on connections that are borrowed for it leaves the handle regular. -/
theorem keeps_of_held {a : Attempt Handle Error α}
    (held : ∀ h : Handle, h.Regular lent → a.Keeps (Held (h.view lent) lent h)) :
    a.Keeps (Regular lent) := by
  intro h regular
  obtain ⟨_, after⟩ := held h regular h ⟨_, regular.settled.after⟩
  exact after.regular fun _ => id

theorem acquire_lends (regular : h.Regular lent) :
    (acquire : Attempt Handle Error Nat).Ends h
      (fun c next => next.engine = h.engine ∧ next.Regular (c :: lent))
      fun _ next => next.engine = h.engine ∧ next.Regular lent := by
  refine (acquire_after regular.laws.toTransacts regular.settled).mono ?_ ?_
  · exact fun c _ ⟨_, held⟩ => ⟨held.engine, held.regular fun _ => List.mem_cons_of_mem c⟩
  · exact fun _ _ held => ⟨held.engine, held.regular fun _ => id⟩

theorem withConnection_keeps {work : Nat → Attempt Store Error α}
    (each : ∀ h : Handle, h.Regular lent → ∀ c, c ∉ lent → (work c).Keeps (h.view lent).Idle) :
    (withConnection work).Keeps (Regular lent) :=
  keeps_of_held fun h regular => withConnection_held regular.laws (fun _ => id) (each h regular)

/-! ### Requests -/

theorem onStore_keeps {a : Attempt Store Error α} (keeps : a.Keeps (Store.Regular lent)) :
    (onStore a).Keeps (Regular lent) :=
  .onPart fun h regular => ⟨regular.pool, keeps h.store regular.store⟩

theorem onHandle_keeps (request : Request) :
    (request.onHandle : Attempt Handle Error Reply).Keeps (Regular lent) :=
  keeps_of_held fun _ regular =>
    onHandle_held regular.laws (fun _ => id) (.of_forall (fun _ => trivial) _ request)

theorem reload_keeps : (reload : Attempt Handle Error Unit).Keeps (Regular lent) := by
  rw [reload_eq]
  refine .bind (.observe (withConnection_keeps fun h regular c fresh => ?_)) fun _ _ regular =>
    ⟨regular.pool, regular.store⟩
  exact (regular.laws.discover _ fresh).mapError.idle

theorem create_keeps (new : NewTable) :
    (create new : Attempt Handle Error Nat).Keeps (Regular lent) := by
  rw [create_eq]
  exact withConnection_keeps fun h regular c fresh => (regular.laws.create_idle new fresh).mapError

theorem isAlive_keeps : (isAlive : Attempt Handle Error Bool).Keeps (Regular lent) := by
  rw [isAlive_eq]
  refine .bind (.observe (withConnection_keeps fun h regular c fresh => ?_)) fun found => ?_
  · exact (regular.laws.ping fresh).mapError.idle
  · cases found with
    | ok _ => exact .pure _
    | error e => exact .pure _

/-! ### Scopes -/

theorem enterScope_lends (regular : h.Regular lent) (mode : Mode) :
    (enterScope mode : Attempt Handle Error Scope).Ends h
      (fun opened next => opened.began = true ∧ next.Regular (opened.session.connection :: lent))
      fun _ next => next.Regular lent := by
  refine (enterScope_entered regular.laws.toTransacts regular.settled mode).mono ?_
    fun _ _ after => after.regular fun _ => id
  rintro opened next ⟨beside, _, began, _, _, kept, _⟩
  exact ⟨began, beside.pool, kept⟩

theorem abandonScope_regular {opened : Scope} (began : opened.began = true)
    (regular : h.Regular (opened.session.connection :: lent)) :
    (abandonScope opened h).Regular lent := by
  unfold abandonScope release
  cases h.engine with
  | blocking => exact settle_regular regular
  | async =>
      refine drop_regular (s := opened.suspended _) regular.pool ?_
      unfold AsyncSession.Settles Scope.suspended
      rw [if_pos began]
      exact regular.store

theorem Blocking.leaveScope_returns {opened : Scope} (blocking : h.engine = .blocking)
    (regular : h.Regular (opened.session.connection :: lent)) (outcome : Except Error α) :
    (Blocking.leaveScope opened outcome : Attempt Handle Error α).Ends h
      (fun _ next => next.Regular lent) fun _ next => next.Regular lent := by
  have back {s : Store} (kept : s.Regular (opened.session.connection :: lent)) :
      (release opened.session.connection { h with store := s }).Regular lent := by
    unfold release
    rw [blocking]
    exact settle_regular ⟨regular.pool, kept⟩
  unfold Blocking.leaveScope
  refine .observing (.onPart (((Connection.leave_keeps opened.began outcome).ends
    regular.store).mono ?_ ?_))
  · exact fun v s kept => .after rfl (.of_eq_ok rfl (back kept))
  · exact fun e s kept => .after rfl (.of_eq_error rfl (back kept))

theorem Async.leaveScope_returns {s : AsyncSession} (opened : s.transactionOpen = true)
    (regular : h.Regular (s.connection :: lent)) (outcome : Except Error α) :
    (Async.leaveScope s outcome : Attempt (Timed Handle) Error α).Ends ⟨h, []⟩
      (fun _ t => t.state.Regular lent) fun _ t => t.state.Regular lent := by
  unfold Async.leaveScope
  refine (onStore_holds (s.leave_settles regular.store opened outcome)).bind ?_
    fun _ _ ⟨_, _, never⟩ => never.elim
  rintro ⟨ended, last⟩ ⟨_, left⟩ ⟨store, rfl, same, settles⟩
  have dropped : (Async.drop last { h with store }).Regular lent :=
    drop_regular (same ▸ regular.pool) settles
  refine .after rfl ?_
  cases ended with
  | ok w => exact .of_eq_ok rfl dropped
  | error e => exact .of_eq_error rfl dropped

theorem leaveScope_returns {opened : Scope} (began : opened.began = true)
    (regular : h.Regular (opened.session.connection :: lent)) (outcome : Except Error α) :
    (leaveScope opened outcome : Attempt Handle Error α).Ends h
      (fun _ next => next.Regular lent) fun _ next => next.Regular lent := by
  refine byEngine_ends (fun blocking => Blocking.leaveScope_returns blocking regular outcome) ?_
  exact .after rfl (Async.leaveScope_returns (s := opened.suspended _) began regular outcome)

/-! ## Runs -/

theorem serve_keeps {opened : Scope} (loaned : opened.session.connection ∈ lent)
    (request : Request) :
    (opened.serve request : Attempt Handle Error Reply).Keeps (Regular lent) := by
  rw [Scope.serve_eq]
  exact .bind (.reading _) fun settings =>
    onStore_keeps (Session.inSession_keeps loaned settings request)

/-- A handle that is opened has a regular store, and nothing is lent from it. -/
theorem openWith_regular {engine : Engine} {settings : Settings} {catalog : Catalog}
    (opened : openWith engine settings catalog = .ok h) : h.Regular [] := by
  have fresh : Regular [] { engine, settings, catalog, store := {} } := by
    refine ⟨⟨.nil, List.forall_mem_nil _⟩, ⟨⟨.nil, List.forall_mem_nil _⟩, nofun,
      List.forall_mem_nil _, List.forall_mem_nil _, nofun⟩⟩
  obtain ⟨_, _, rest⟩ := bind_eq_ok_iff.mp opened
  have reached := withConnection_keeps (α := Unit) (fun _ _ _ _ => .pure ()) _ fresh
  split at rest
  · rename_i same
    cases rest
    rw [same] at reached
    exact reached
  · cases rest

theorem engine_of_openWith {engine : Engine} {settings : Settings} {catalog : Catalog}
    (opened : openWith engine settings catalog = .ok h) : h.engine = engine := by
  obtain ⟨_, _, rest⟩ := bind_eq_ok_iff.mp opened
  have kin := withConnection_kin (h := { engine, settings, catalog, store := {} })
    (fun _ => (pure () : Attempt Store Error Unit)) _ ⟨rfl, rfl, rfl⟩
  split at rest
  · rename_i same
    cases rest
    rw [same] at kin
    exact kin.engine
  · cases rest

theorem connect_regular {engine : Engine} {settings : Settings}
    (connected : connect engine settings = .ok h) : h.Regular [] := by
  obtain ⟨opened, found, rest⟩ := bind_eq_ok_iff.mp connected
  have reached := reload_keeps opened (openWith_regular found)
  split at rest
  · rename_i same
    cases rest
    exact (same ▸ reached :)
  · cases rest

theorem createAll_keeps (tables : List NewTable) : (createAll tables).Keeps (Regular lent) := by
  induction tables with
  | nil => exact .pure _
  | cons new rest ih => exact .bind (create_keeps new) fun _ => ih

/-- A handle that was started is regular. -/
theorem start_regular {engine : Engine} {settings : Settings} {catalog : Option Catalog}
    {tables : List NewTable} (started : start engine settings catalog tables = .ok h) :
    h.Regular [] := by
  unfold start at started
  dsimp only at started
  generalize prepares : (do
      createAll tables
      if catalog.isNone then reload : Attempt Handle Error Unit) = preparation at started
  have keeps : preparation.Keeps (Regular []) := by
    rw [← prepares]
    refine .bind (createAll_keeps tables) fun _ => ?_
    split
    · exact reload_keeps
    · exact .pure _
  have regular (opened : Handle)
      (found : catalog.elim (connect engine settings) (openWith engine settings) = .ok opened) :
      opened.Regular [] := by
    cases catalog with
    | none => exact connect_regular found
    | some given => exact openWith_regular found
  -- the same preparation follows whichever way the handle is opened
  cases catalog
  all_goals
    obtain ⟨opened, found, rest⟩ := bind_eq_ok_iff.mp started
    have reached := keeps opened (regular opened found)
    split at rest
    · rename_i same
      cases rest
      exact (same ▸ reached :)
    · cases rest

end Handle

mutual

/-- A step of a script leaves the handle regular. -/
theorem Step.regular_run {lent : List Nat} {h : Handle} (regular : h.Regular lent) (step : Step) :
    (step.run h).2.Regular lent := by
  cases step with
  | request asked => exact Handle.onHandle_keeps asked h regular
  | reload => exact Handle.reload_keeps h regular
  | stats => exact regular
  | check =>
      have reached := Handle.isAlive_keeps h regular
      unfold Step.run
      split
      · rename_i same
        exact (same ▸ reached :)
      · rename_i same
        exact (same ▸ reached :)
  | scope mode options steps =>
      have reached := Handle.enterScope_lends regular mode
      unfold Step.run
      split
      · rename_i same
        exact reached.holds_error same
      · rename_i opened entered same
        obtain ⟨began, lends⟩ := reached.holds_ok same
        have worked := ScopeStep.regular_runAll opened options List.mem_cons_self lends steps
        dsimp only
        split
        · exact Handle.abandonScope_regular began worked
        · exact (Handle.leaveScope_returns began worked _).leaves

/-- So does a step inside a scope. -/
theorem ScopeStep.regular_run (scope : Scope) {lent : List Nat} {h : Handle}
    (loaned : scope.session.connection ∈ lent) (regular : h.Regular lent) (step : ScopeStep) :
    (step.run scope h).2.Regular lent := by
  cases step with
  | request asked => exact Handle.serve_keeps loaned asked h regular
  | outer step => exact Step.regular_run regular step

theorem ScopeStep.regular_runAll (scope : Scope) (options : ScopeOptions) {lent : List Nat}
    {h : Handle} (loaned : scope.session.connection ∈ lent) (regular : h.Regular lent)
    (steps : List ScopeStep) : (ScopeStep.runAll scope options h steps).2.2.Regular lent := by
  cases steps with
  | nil => exact regular
  | cons step rest =>
      have reached := ScopeStep.regular_run scope loaned regular step
      unfold ScopeStep.runAll
      dsimp only
      split
      · exact reached
      · exact ScopeStep.regular_runAll scope options loaned reached rest

end

/-- Every script leaves the handle regular. -/
theorem Handle.regular_runScript {lent : List Nat} {h : Handle} (regular : h.Regular lent)
    (steps : List Step) : (h.runScript steps).2.Regular lent := by
  induction steps generalizing h with
  | nil => exact regular
  | cons step rest ih => exact ih (step.regular_run regular)

/-! ## Loans -/

theorem LoanRequest.onConnection_keeps {lent : List Nat} {c : Nat} (loaned : c ∈ lent)
    (request : LoanRequest) : (request.onConnection c).Keeps (Store.Regular lent) := by
  cases request with
  | begin mode => exact .bind (Connection.begin_keeps loaned mode) fun _ => .pure _
  | commit => exact .bind Connection.commit_keeps fun _ => .pure _
  | rollback => exact .bind Connection.rollback_keeps fun _ => .pure _
  | ping => exact .bind Connection.ping_keeps fun _ => .pure _
  | discover => exact .bind Connection.discover_keeps fun _ => .pure _
  | create new => exact .bind (Connection.create_keeps new) fun _ => .pure _
  | insert table rows =>
      refine .bind Connection.discover_keeps fun _ => .bind (.ofExcept _) fun i => ?_
      exact .bind (Connection.insertRows_keeps i) fun _ => .pure _
  | dump table => exact .bind (Connection.dump_keeps table) fun _ => .pure _
  | fail e => exact .throw e

/-- Taking one of several loans back leaves the others. -/
theorem perm_filterMap_of_getElem? {slots : List (Option Nat)} {slot c : Nat}
    (held : slots[slot]? = some (some c)) :
    (slots.filterMap id).Perm (c :: (slots.set slot none).filterMap id) := by
  induction slots generalizing slot with
  | nil => simp at held
  | cons first rest ih =>
      cases slot with
      | zero =>
          cases held
          exact .refl _
      | succ slot =>
          have later := ih (by simpa using held)
          cases first with
          | none => simpa using later
          | some d => simpa using (later.cons d).trans (.swap c d _)

namespace Loans

variable {α : Type} {slot c : Nat} {loans : Loans}

def lent (loans : Loans) : List Nat := loans.slots.filterMap id

/-- The handle behind the loans, whose callers wait, is regular. -/
structure Regular (loans : Loans) : Prop where
  blocking : loans.handle.engine = .blocking
  handle : loans.handle.Regular loans.lent

theorem start_regular {settings : Settings} (started : start settings = .ok loans) :
    loans.Regular := by
  obtain ⟨h, opened, rest⟩ := bind_eq_ok_iff.mp started
  cases rest
  exact ⟨Handle.engine_of_openWith opened, Handle.openWith_regular opened⟩

/-- Only a connection that is lent is found. -/
theorem connection_ends (slot : Nat) (loans : Loans) : (connection slot).Ends loans
    (fun c next => next = loans ∧ loans.slots[slot]? = some (some c)) fun _ next => next = loans := by
  unfold connection Ends
  rw [Attempt.outcome_of]
  rcases loans.slots[slot]? with _ | _ | c
  · rfl
  · rfl
  · exact ⟨rfl, rfl⟩

/-- What is done on the connection of a loan leaves it lent. -/
theorem work_keeps {a : Nat → Attempt Store Error α}
    (keeps : ∀ c lent, c ∈ lent → (a c).Keeps (Store.Regular lent)) (slot : Nat) :
    (connection slot >>= fun c => onHandle (Handle.onStore (a c))).Keeps Regular := by
  refine .of_ends fun loans regular => ?_
  refine (connection_ends slot loans).bind ?_ fun _ _ same => same ▸ regular
  rintro c loans ⟨rfl, held⟩
  have loaned : c ∈ loans.lent :=
    List.mem_filterMap.mpr ⟨some c, List.mem_of_getElem? held, rfl⟩
  have kin : (Handle.onStore (a c)).Ends loans.handle (fun _ => loans.handle.Kin)
      fun _ => loans.handle.Kin := Handle.onStore_kin.ends ⟨rfl, rfl, rfl⟩
  refine .onPart ((kin.and ((Handle.onStore_keeps (keeps c loans.lent loaned)).ends
    regular.handle)).mono ?_ ?_)
  · exact fun _ _ ⟨kin, kept⟩ => ⟨kin.engine.trans regular.blocking, kept⟩
  · exact fun _ _ ⟨kin, kept⟩ => ⟨kin.engine.trans regular.blocking, kept⟩

theorem lend_keeps : lend.Keeps Regular := by
  refine .of_ends fun loans ⟨blocking, regular⟩ => ?_
  have lends : (onHandle Handle.acquire).Ends loans
      (fun c next => next.slots = loans.slots ∧ next.handle.engine = .blocking ∧
        next.handle.Regular (c :: loans.lent))
      fun _ next => next.Regular :=
    .onPart ((Handle.acquire_lends regular).mono
      (fun _ _ ⟨engine, held⟩ => ⟨rfl, engine.trans blocking, held⟩)
      fun _ _ ⟨engine, kept⟩ => ⟨engine.trans blocking, kept⟩)
  refine lends.bind ?_ fun _ _ kept => kept
  rintro c next ⟨slots, engine, held⟩
  refine .after rfl (.after rfl (.pure ⟨engine, ?_⟩))
  have added : (next.slots ++ [some c]).filterMap id = loans.lent ++ [c] := by
    rw [slots, List.filterMap_append]
    rfl
  unfold lent
  rw [added]
  exact held.perm (List.perm_append_singleton c loans.lent).symm

theorem giveBack_keeps (slot : Nat) : (giveBack slot).Keeps Regular := by
  refine .of_ends fun loans regular => ?_
  refine (connection_ends slot loans).bind ?_ fun _ _ same => same ▸ regular
  rintro c loans ⟨rfl, held⟩
  have given := regular.handle.perm (perm_filterMap_of_getElem? held)
  have settled :
      (Handle.release c loans.handle).Regular ((loans.slots.set slot none).filterMap id) := by
    unfold Handle.release
    rw [regular.blocking]
    exact Handle.settle_regular given
  exact .of_eq_ok rfl ⟨(Handle.release_kin ⟨rfl, rfl, rfl⟩).engine.trans regular.blocking, settled⟩

theorem serve_keeps (slot : Nat) (request : LoanRequest) : (serve slot request).Keeps Regular :=
  work_keeps (fun _ _ loaned => request.onConnection_keeps loaned) slot

theorem enter_keeps (slot : Nat) (mode : Mode) : (enter slot mode).Keeps Regular :=
  work_keeps (fun _ _ loaned => Connection.enter_keeps loaned mode) slot

theorem leave_keeps (slot : Nat) (began : Bool) (outcome : Except Error α) :
    (leave slot began outcome).Keeps Regular :=
  work_keeps (fun _ _ _ => Connection.leave_keeps began outcome) slot

end Loans

mutual

/-- A step on loans leaves the handle regular. -/
theorem LoanStep.regular_run {loans : Loans} (regular : loans.Regular) (step : LoanStep) :
    (step.run loans).2.Regular := by
  cases step with
  | lend => exact Loans.lend_keeps loans regular
  | giveBack slot => exact Loans.giveBack_keeps slot loans regular
  | stats => exact regular
  | request slot asked => exact Loans.serve_keeps slot asked loans regular
  | bracket slot mode options steps =>
      have reached := Loans.enter_keeps slot mode loans regular
      unfold LoanStep.run
      split
      · rename_i same
        exact (same ▸ reached :)
      · rename_i began entered same
        have worked := LoanStep.regular_runAll options (same ▸ reached :) steps
        exact Loans.leave_keeps slot began _ _ worked

theorem LoanStep.regular_runAll (options : ScopeOptions) {loans : Loans} (regular : loans.Regular)
    (steps : List LoanStep) : (LoanStep.runAll options loans steps).2.2.Regular := by
  cases steps with
  | nil => exact regular
  | cons step rest =>
      have reached := LoanStep.regular_run regular step
      unfold LoanStep.runAll
      dsimp only
      split
      · exact reached
      · exact LoanStep.regular_runAll options reached rest

end

end TableAccess
