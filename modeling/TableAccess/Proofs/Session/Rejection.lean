import TableAccess.Proofs.Rejection
import TableAccess.Proofs.Session.Scope

/-!
# Rejected and executed requests

A request that is rejected has run nothing: its error was found by a compiler, and the store is as
it was, but that the connection borrowed for it may have been set up. Every other error, of a
statement, of a transaction or of the pool, is told apart from those of the compilers. Trackers
pass both on.
-/

namespace TableAccess

open Attempt (Ends)

/-! ## Errors of what runs -/

namespace Attempt

variable {σ τ ε α β : Type}

/-- An attempt whose errors are not those of a compiler. -/
def FailsRunning (a : Attempt σ Error α) : Prop :=
  ∀ s, a.Ends s (fun _ _ => True) fun e _ => e.isCompileError = false

namespace FailsRunning

variable {a : Attempt σ Error α}

theorem pure (v : α) : (Pure.pure v : Attempt σ Error α).FailsRunning := fun _ => .pure trivial

theorem reading (read : σ → α) : (Attempt.reading read : Attempt σ Error α).FailsRunning :=
  fun _ => trivial

theorem changing (change : σ → σ) : (Attempt.changing change : Attempt σ Error Unit).FailsRunning :=
  fun _ => trivial

theorem throw {e : Error} (running : e.isCompileError = false) :
    (MonadExcept.throw e : Attempt σ Error α).FailsRunning :=
  fun _ => .throw running

theorem ofExcept {result : Except Error α}
    (running : ∀ e, result = .error e → e.isCompileError = false) :
    (Attempt.ofExcept result : Attempt σ Error α).FailsRunning := by
  intro s
  cases result with
  | ok v => exact trivial
  | error e => exact running e rfl

theorem bind {next : α → Attempt σ Error β} (first : a.FailsRunning)
    (later : ∀ v, (next v).FailsRunning) : (a >>= next).FailsRunning :=
  fun s => (first s).bind (fun v reached _ => later v reached) fun _ _ running => running

/-- What comes after an attempt that is observed sees only such errors. -/
theorem observing {next : Except Error α → Attempt σ Error β} (first : a.FailsRunning)
    (later : ∀ result, (∀ e, result = .error e → e.isCompileError = false) →
      (next result).FailsRunning) : (a.observe >>= next).FailsRunning := by
  refine fun s => .observing ((first s).mono ?_ ?_)
  · exact fun v reached _ => later (.ok v) (fun _ failed => nomatch failed) reached
  · intro e reached running
    refine later (.error e) (fun other failed => ?_) reached
    cases failed
    exact running

/-- Errors that are given their names while something runs. -/
theorem mapError {inner : Attempt σ ε α} {rename : ε → Error}
    (running : ∀ e, (rename e).isCompileError = false) : (inner.mapError rename).FailsRunning :=
  fun s => .mapError ((Ends.somehow inner s).mono (fun _ _ held => held) fun e _ _ => running e)

theorem onPart {part : τ → σ} {replace : τ → σ → τ} (first : a.FailsRunning) :
    (a.onPart part replace).FailsRunning :=
  fun t => .onPart (first (part t))

/-- A tracker does not change the errors of a change that compiles. -/
theorem tracked {table : String} {operation : Operation} {request : β}
    {run : β → Attempt σ Error α} (running : (run request).FailsRunning) :
    (Tracker.tracked table operation (.ok request) run).FailsRunning :=
  fun s => .congr (Tracker.tracked_ok request run s) (running s)

theorem overChunks {run : List RowValues → Attempt σ Error Nat}
    (running : ∀ chunk, (run chunk).FailsRunning) (report : BulkReport)
    (chunks : List (List RowValues)) : (BulkReport.overChunks run report chunks).FailsRunning := by
  induction chunks generalizing report with
  | nil => exact pure _
  | cons chunk rest ih => exact (running chunk).bind fun _ => ih _

end FailsRunning

end Attempt

/-! ## Waiting -/

namespace Timed

variable {σ α : Type} {work : Attempt σ Error α}

theorem lift_running (running : work.FailsRunning) : (lift work).FailsRunning := .onPart running

theorem nextFate_running : (nextFate : Attempt (Timed σ) Error Fate).FailsRunning := by
  rintro ⟨state, fates⟩
  cases fates with
  | nil => exact .of_eq_ok rfl trivial
  | cons fate rest => exact .of_eq_ok rfl trivial

/-- To have waited in vain is no error of a compiler. -/
theorem await_running (limit : Nat) (interrupt : σ → σ) (running : work.FailsRunning) :
    (await limit interrupt work).FailsRunning := by
  refine nextFate_running.bind fun fate => ?_
  cases fate with
  | inTime => exact lift_running running
  | unstarted => exact .throw rfl
  | late => exact (lift_running running).observing fun _ _ => .throw rfl
  | interrupted => exact .bind (.onPart (.changing interrupt)) fun _ => .throw rfl

end Timed

/-! ## Connections -/

section Machine

variable {σ α : Type} [Machine σ]

namespace Connection

variable (c : Nat)

theorem begin_running (mode : Mode) : (begin c mode : Attempt σ Error Unit).FailsRunning :=
  .mapError fun _ => rfl

theorem commit_running : (commit c : Attempt σ Error Unit).FailsRunning := .mapError fun _ => rfl

theorem rollback_running : (rollback c : Attempt σ Error Unit).FailsRunning := .mapError fun _ => rfl

theorem enter_running (mode : Mode) : (enter c mode : Attempt σ Error Bool).FailsRunning := by
  refine .bind (.reading _) fun joined => ?_
  split
  · exact .pure _
  · exact (begin_running c mode).bind fun _ => .pure _

theorem fail_running {e : Error} (running : e.isCompileError = false) :
    (fail c e : Attempt σ Error α).FailsRunning :=
  (rollback_running c).observing fun _ _ => .throw running

theorem leave_running (began : Bool) {outcome : Except Error α}
    (running : ∀ e, outcome = .error e → e.isCompileError = false) :
    (leave c began outcome : Attempt σ Error α).FailsRunning := by
  unfold leave
  split
  · cases outcome with
    | error e => exact fail_running c (running e rfl)
    | ok a =>
        refine (commit_running c).observing fun ended failing => ?_
        cases ended with
        | ok _ => exact .pure a
        | error e => exact fail_running c (failing e rfl)
  · exact .ofExcept running

theorem inTransaction_running (mode : Mode) {body : Attempt σ Error α}
    (running : body.FailsRunning) : (inTransaction c mode body).FailsRunning :=
  (enter_running c mode).bind fun began => running.observing fun _ failing =>
    leave_running c began failing

theorem select_running (q : Select) : (select c q : Attempt σ Error (List Row)).FailsRunning :=
  .mapError (Error.isCompileError_ofFault q.table)

theorem insertRows_running (i : Insert) :
    (insertRows c i : Attempt σ Error InsertReport).FailsRunning :=
  .bind (.mapError (Error.isCompileError_ofFault i.table)) fun _ =>
    .bind (.reading _) fun _ => .pure _

theorem insert_running (i : Insert) : (insert c i : Attempt σ Error InsertReport).FailsRunning :=
  inTransaction_running c .immediate (insertRows_running c i)

theorem update_running (u : Update) : (update c u : Attempt σ Error Nat).FailsRunning :=
  inTransaction_running c .immediate (.mapError (Error.isCompileError_ofFault u.table))

theorem delete_running (d : Delete) : (delete c d : Attempt σ Error Nat).FailsRunning :=
  inTransaction_running c .immediate (.mapError (Error.isCompileError_ofFault d.table))

theorem updateChunk_running (b : BulkUpdate) (rows : List RowValues) :
    (updateChunk c b rows : Attempt σ Error Nat).FailsRunning :=
  inTransaction_running c .immediate (.mapError (Error.isCompileError_ofFault b.table))

end Connection

namespace AsyncSession

variable (s : AsyncSession)

theorem run_running {work : Attempt σ Error α} (running : work.FailsRunning) :
    (s.run work).FailsRunning :=
  Timed.await_running _ _ running

end AsyncSession

/-! ## Pools -/

theorem Engine.isCompileError_ofRefusal (engine : Engine) (settings : Settings)
    (refusal : Refusal) : (engine.ofRefusal settings refusal).isCompileError = false := by
  cases refusal <;> cases engine <;> rfl

namespace Handle

omit [Machine σ] in
theorem openConnection_running :
    (openConnection : Attempt (Handle σ) Error Nat).FailsRunning := fun h =>
  openConnection_of_cases (fun _ => h.engine.isCompileError_ofRefusal h.settings _)
    (fun fault _ _ => h.engine.isCompileError_ofRefusal h.settings (.cannotOpen fault))
    fun _ _ => trivial

omit [Machine σ] in
theorem onStore_running {a : Attempt σ Error α} (running : a.FailsRunning) :
    (onStore a).FailsRunning := .onPart running

theorem configured_running (c : Nat) (refused : Handle σ → Handle σ) :
    (configured c refused).FailsRunning := by
  have setUp : (Connection.configure c : Attempt σ Error Unit).FailsRunning := .mapError fun _ => rfl
  refine .observing (onStore_running setUp) fun ended failing => ?_
  cases ended with
  | ok _ => exact .pure c
  | error e => exact .bind (.changing refused) fun _ => .throw (failing e rfl)

theorem lendAnswering_running (count : Nat) :
    (lendAnswering count : Attempt (Handle σ) Error (Option Nat)).FailsRunning := by
  induction count with
  | zero => exact .pure _
  | succ count ih =>
      refine .bind (.reading _) fun pool => ?_
      split
      · exact .pure _
      · refine .bind (.changing _) fun _ => .bind (.reading _) fun s => ?_
        split
        · exact .pure _
        · exact .bind (.changing _) fun _ => ih

/-- The pool refuses a connection with errors of its own. -/
theorem acquire_running : (acquire : Attempt (Handle σ) Error Nat).FailsRunning := by
  refine .bind (.reading _) fun engine => ?_
  cases engine with
  | blocking =>
      refine .bind (.reading _) fun pool => ?_
      split
      · exact .bind (.changing _) fun _ => .pure _
      · exact openConnection_running.bind fun c => configured_running c _
  | async =>
      refine .bind (.reading _) fun idle => (lendAnswering_running idle).bind fun found => ?_
      cases found with
      | none => exact openConnection_running.bind fun c => configured_running c _
      | some c => exact configured_running c _

theorem withConnection_running {work : Nat → Attempt σ Error α}
    (running : ∀ c, (work c).FailsRunning) : (withConnection work).FailsRunning :=
  acquire_running.bind fun c => .observing (onStore_running (running c)) fun _ failing =>
    .bind (.changing _) fun _ => .ofExcept failing

namespace Async

omit [Machine σ] in
theorem onStore_running {a : Attempt (Timed σ) Error α} (running : a.FailsRunning) :
    (onStore a).FailsRunning := by
  unfold onStore Timed.onPart
  exact .onPart running

theorem openSession_running :
    (openSession : Attempt (Timed (Handle σ)) Error AsyncSession).FailsRunning :=
  .bind (Timed.lift_running acquire_running) fun _ =>
    .bind (Timed.lift_running (.reading _)) fun _ =>
      .bind (Timed.lift_running (.reading _)) fun _ => .pure _

theorem withSession_running {work : AsyncSession → Attempt (Timed σ) Error α}
    (running : ∀ s, (work s).FailsRunning) : (withSession work).FailsRunning :=
  openSession_running.bind fun s => .observing (onStore_running (running s)) fun _ failing =>
    .bind (Timed.lift_running (.changing _)) fun _ => .ofExcept failing

theorem updateChunks_running (b : BulkUpdate) (report : BulkReport)
    (chunks : List (List RowValues)) :
    (updateChunks b report chunks : Attempt (Timed (Handle σ)) Error BulkReport).FailsRunning := by
  induction chunks generalizing report with
  | nil => exact .pure _
  | cons chunk rest ih =>
      refine .bind (withSession_running fun s => ?_) fun _ => ih _
      exact Timed.lift_running (Connection.updateChunk_running s.connection b chunk)

end Async

end Handle

end Machine

/-! ## Verdicts -/

namespace Attempt

variable {σ α β : Type}

/-- A call that ends as the compilers have said, with the state as it was, or that they have
accepted and that fails while it runs. -/
def Follows (call : Attempt σ Error α) (verdict : Except Error Unit) (s : σ) : Prop :=
  call.Ends s (fun _ _ => verdict = .ok ()) fun e next =>
    (verdict = .error e ∧ next = s) ∨ (verdict = .ok () ∧ e.isCompileError = false)

namespace Follows

variable {s : σ}

theorem wrapped {verdict : Except Error Unit} {call : Attempt σ Error α}
    (follows : call.Follows verdict s) (wrap : α → β) :
    (call >>= fun v => pure (wrap v)).Follows verdict s :=
  Ends.wrapped follows

theorem tracked {table : String} {operation : Operation} {compiled : Except Error β}
    {run : β → Attempt σ Error α} (running : ∀ request, (run request).FailsRunning) (s : σ) :
    (Tracker.tracked table operation compiled run).Follows (compiled.map fun _ => ()) s := by
  refine Tracker.tracked_ends ?_ ?_
  · rintro e rfl
    exact .inl ⟨rfl, rfl⟩
  · rintro request rfl
    exact (running request s).mono (fun _ _ _ => rfl) fun _ _ failed => .inr ⟨rfl, failed⟩

theorem plan {q : Query} {current : Snapshot} {run : Select → Attempt σ Error α}
    (running : ∀ plan, (run plan).FailsRunning) (s : σ) :
    (Attempt.ofExcept (q.plan current) >>= run).Follows ((q.build current).map fun _ => ()) s := by
  unfold Query.build
  cases q.plan current with
  | error e => exact .stop rfl (.inl ⟨rfl, rfl⟩)
  | ok plan =>
      refine .after rfl ((running plan s).mono ?_ ?_)
      · exact fun _ _ _ => rfl
      · exact fun _ _ failed => .inr ⟨rfl, failed⟩

end Follows

end Attempt

/-! ## What is left of a store -/

def Store.SetUp (s t : Store) : Prop :=
  t = s ∨ ∃ c, t = s.remember c Memory.expire

/-- A store in which nothing was run: its content, its transactions and the numbers of the rows
that were inserted last are as they were, and no statement was counted. -/
structure Store.Untouched (s t : Store) : Prop where
  database : t.database = s.database
  transactions : t.transactions = s.transactions
  writer : t.writer = s.writer
  statements : t.statements = s.statements
  number : ∀ c, (t.memory c).number = (s.memory c).number

namespace Store

variable {s t : Store} {c : Nat}

theorem SetUp.untouched (setUp : SetUp s t) : Untouched s t := by
  rcases setUp with rfl | ⟨c, rfl⟩
  · exact ⟨rfl, rfl, rfl, rfl, fun _ => rfl⟩
  · refine ⟨rfl, rfl, rfl, rfl, fun d => ?_⟩
    rw [memory_remember]
    split
    · rename_i same
      rw [same]
      rfl
    · rfl

/-- A connection that has nothing open leaves nothing behind when it is closed. -/
theorem undo_eq_self (free : s.Free c) : s.undo c = s := by
  have closed : s.transaction? c = none := by
    simpa [isOpen] using free.isOpen
  have writer : s.writerWithout c = s.writer := by
    unfold writerWithout
    cases held : s.writer with
    | none => rfl
    | some w =>
        have other : w.connection ≠ c :=
          free.elsewhere (w.connection, w.before) (by simp [holder, held])
        simp [other, isActive, closed]
  have content : s.contentBefore c = s.database := by
    rw [contentBefore_eq]
    exact contentBefore_elsewhere free.elsewhere
  unfold undo release changedSchema
  simp [closed, writer, content, filter_elsewhere free]

end Store

/-! ## Borrowing -/

namespace Handle

variable {lent : List Nat} {h g : Handle} {c : Nat} {α : Type}

theorem store_release (free : h.store.Free c) : (release c h).store = h.store := by
  rw [release_closed free.isOpen]

theorem store_discard (free : h.store.Free c) : (discard c h).store = h.store :=
  Store.undo_eq_self free

theorem openConnection_store : (openConnection : Attempt Handle Error Nat).Ends g
    (fun _ next => next.store = g.store) fun _ next => next.store = g.store :=
  openConnection_of_cases (fun _ => rfl) (fun _ _ _ => rfl) fun _ _ => rfl

/-- Idle connections that do not answer are closed, and leave nothing behind. -/
theorem lendAnswering_store (sound : h.store.Sound lent) (count : Nat)
    (pool : g.pool.Sound lent) (same : g.store = h.store) :
    (lendAnswering count : Attempt Handle Error (Option Nat)).Ends g
      (fun _ next => next.store = h.store) fun _ _ => False := by
  induction count generalizing g with
  | zero => exact .pure same
  | succ count ih =>
      refine lendAnswering_of_cases (fun _ => same) ?_ fun _ _ _ _ => same
      intro c rest idle _
      have lending := pool.lendIdle idle
      refine ih lending.discard ?_
      exact (store_discard (same ▸ sound.free lending.fresh)).trans same

/-- Setting a connection up is all that is done to it. -/
theorem configured_store {refused : Handle → Handle}
    (back : (refused g).store = g.store) : (configured c refused).Ends g
      (fun _ next => g.store.SetUp next.store) fun _ next => next.store = g.store :=
  configured_of_cases (fun _ => .inr ⟨c, rfl⟩) fun _ => back

/-- A connection is borrowed without running anything but what sets it up. -/
theorem acquire_store (sound : h.Sound lent) : (acquire : Attempt Handle Error Nat).Ends h
    (fun _ next => h.store.SetUp next.store) fun _ next => next.store = h.store := by
  have laws := sound.transacts.toLends
  -- a refused connection leaves nothing, whether it is closed or given back
  have setUp {next : Handle} {c : Nat} {refused : Handle → Handle}
      (same : next.store = h.store) (back : (refused next).store = next.store) :
      (configured c refused).Ends next (fun _ last => h.store.SetUp last.store)
        fun _ last => last.store = h.store := by
    rw [← same]
    exact configured_store back
  refine acquire_of_cases (fun _ _ _ _ => .inl rfl) ?_ ?_
  · intro _ _
    refine ((openConnection_after sound.settled.after).and openConnection_store).bind ?_ ?_
    · rintro c next ⟨⟨fresh, _⟩, same⟩
      exact setUp same (store_discard (same ▸ sound.store.free fresh))
    · exact fun _ _ ⟨_, same⟩ => same
  · intro _
    refine ((lendAnswering_after laws sound.settled.knows _ sound.settled.after).and
      (lendAnswering_store sound.store _ sound.pool rfl)).mono ?_ fun _ _ never => never.1.elim
    rintro (_ | c) next ⟨kept, same⟩
    · refine ((openConnection_after kept).and openConnection_store).bind ?_ ?_
      · rintro c last ⟨⟨fresh, _⟩, still⟩
        have whole : last.store = h.store := still.trans same
        exact setUp whole (store_release (whole ▸ sound.store.free fresh))
      · exact fun _ _ ⟨_, still⟩ => still.trans same
    · exact setUp same (store_release (same ▸ sound.store.free kept.1))

/-- How a call fails on a handle: it is rejected, and then a connection was at most set up for it,
or what it runs fails. -/
def Fails (h : Handle) (verdict : Except Error Unit) (e : Error) (next : Handle) : Prop :=
  (verdict = .error e ∧ h.store.SetUp next.store) ∨ e.isCompileError = false

variable {verdict : Except Error Unit}

/-- A call whose verdict is reached before a connection is borrowed. -/
theorem fails_of_follows {call : Attempt Handle Error α} (follows : call.Follows verdict h) :
    call.Ends h (fun _ _ => True) (h.Fails verdict) := by
  refine follows.mono (fun _ _ _ => trivial) ?_
  rintro e next (⟨found, rfl⟩ | ⟨_, failed⟩)
  · exact .inl ⟨found, .inl rfl⟩
  · exact .inr failed

/-- A call whose verdict is reached on a borrowed connection. -/
theorem withConnection_fails {work : Nat → Attempt Store Error α} (sound : h.Sound lent)
    (follows : ∀ c s, (work c).Follows verdict s) :
    (withConnection work).Ends h (fun _ _ => True) (h.Fails verdict) := by
  unfold withConnection
  refine (((acquire_after sound.transacts sound.settled).and (acquire_store sound)).and
    (acquire_running h)).bind ?_ fun _ _ ⟨_, running⟩ => .inr running
  rintro c g ⟨⟨⟨fresh, held⟩, setUp⟩, _⟩
  have free : g.store.Free c := held.store.1.free (sound.store.free fresh)
  refine .observing (.onPart ((follows c g.store).mono ?_ ?_))
  · exact fun _ _ _ => .after rfl (.of_eq_ok rfl trivial)
  · rintro e _ (⟨rejected, rfl⟩ | ⟨_, failed⟩)
    · exact .after rfl (.of_eq_error rfl (.inl ⟨rejected, (store_release free).symm ▸ setUp⟩))
    · exact .after rfl (.of_eq_error rfl (.inr failed))

/-- A call whose verdict is reached in the session of a suspended caller. -/
theorem Async.withSession_fails {work : AsyncSession → Attempt (Timed Store) Error α}
    (sound : h.Sound lent) (fates : List Fate)
    (follows : ∀ s : AsyncSession, s.snapshot = h.catalog.current →
      ∀ t, (work s).Follows verdict t) :
    (withSession work).Ends ⟨h, fates⟩ (fun _ _ => True) fun e t => h.Fails verdict e t.state := by
  unfold withSession
  refine ((openSession_after sound.transacts sound.settled fates).and
    (openSession_running _)).bind ?_ fun _ _ ⟨_, running⟩ => .inr running
  rintro s ⟨g, left⟩ ⟨⟨opened, rfl⟩, _⟩
  have setUp : h.store.SetUp g.store := (acquire_store sound).holds_ok opened.acquired
  -- the session has no transaction open, so its connection is given back as it is
  have dropped : (drop s g).store = g.store := by
    unfold drop
    rw [opened.closed]
    rfl
  refine .observing (onStore_ends ((follows s opened.snapshot ⟨g.store, left⟩).mono ?_ ?_))
  · exact fun _ _ _ => .after rfl (.of_eq_ok rfl trivial)
  · rintro e _ (⟨rejected, rfl⟩ | ⟨_, failed⟩)
    · exact .after rfl (.of_eq_error rfl (.inl ⟨rejected, dropped.symm ▸ setUp⟩))
    · exact .after rfl (.of_eq_error rfl (.inr failed))

end Handle

/-! ## Requests -/

namespace Request

open Attempt (Follows)

variable {α β : Type}

/-- Whether a request reads or changes the rows of a table. -/
def isAccess : Request → Bool
  | select .. | insert .. | update .. | delete .. | bulkUpdate .. => true
  | _ => false

/-- What the compilers say of a request. -/
def verdict (current : Snapshot) (settings : Settings) : Request → Except Error Unit
  | select query => (query.build current).map fun _ => ()
  | insert table rows => (Insert.compile current table rows).map fun _ => ()
  | update table set filter => (Update.compile current table set filter).map fun _ => ()
  | delete table filter => (Delete.compile current table filter).map fun _ => ()
  | bulkUpdate table rows keys size =>
      (BulkUpdate.compile current table rows keys (size.getD settings.defaultChunkSize)).map
        fun _ => ()
  | _ => .ok ()

theorem rejects_verdict (current : Snapshot) (settings : Settings) (r : Request) :
    Rejects (r.verdict current settings) := by
  cases r with
  | select query => exact (query.rejects_build current).map _
  | insert table rows => exact (Insert.rejects_compile current table rows).map _
  | update table set filter => exact (Update.rejects_compile current table set filter).map _
  | delete table filter => exact (Delete.rejects_compile current table filter).map _
  | bulkUpdate table rows keys size =>
      exact (BulkUpdate.rejects_compile current table rows keys _).map _
  | _ => exact .ok ()

/-- In a session the verdict of the compilers is reached before anything runs. -/
theorem inSession_follows {σ : Type} [Machine σ] {r : Request} (access : r.isAccess = true)
    (s : Session) (settings : Settings) (t : σ) :
    (r.inSession s settings).Follows (r.verdict s.snapshot settings) t := by
  cases r with
  | select query =>
      exact (Follows.plan (Connection.select_running s.connection) t).wrapped _
  | insert table rows =>
      exact (Follows.tracked (Connection.insert_running s.connection) t).wrapped _
  | update table set filter =>
      exact (Follows.tracked (Connection.update_running s.connection) t).wrapped _
  | delete table filter =>
      exact (Follows.tracked (Connection.delete_running s.connection) t).wrapped _
  | bulkUpdate table rows keys size =>
      refine (Follows.tracked (fun request => ?_) t).wrapped _
      cases request with
      | none => exact .pure _
      | some b => exact .overChunks (Connection.updateChunk_running s.connection b) {} _
  | _ => cases access

/-- So it is in the session of a suspended caller, however long anything takes. -/
theorem inAsyncSession_follows {σ : Type} [Machine σ] {r : Request} (access : r.isAccess = true)
    (s : AsyncSession) (settings : Settings) (t : Timed σ) :
    (r.inAsyncSession s settings).Follows (r.verdict s.snapshot settings) t := by
  cases r with
  | select query =>
      exact (Follows.plan (fun plan =>
        s.run_running (Connection.select_running s.connection plan)) t).wrapped _
  | insert table rows =>
      exact (Follows.tracked (fun i =>
        s.run_running (Connection.insert_running s.connection i)) t).wrapped _
  | update table set filter =>
      exact (Follows.tracked (fun u =>
        s.run_running (Connection.update_running s.connection u)) t).wrapped _
  | delete table filter =>
      exact (Follows.tracked (fun d =>
        s.run_running (Connection.delete_running s.connection d)) t).wrapped _
  | bulkUpdate table rows keys size =>
      refine (Follows.tracked (fun request => Timed.lift_running ?_) t).wrapped _
      cases request with
      | none => exact .pure _
      | some b =>
          dsimp only
          rw [BulkReport.foldlM_eq_overChunks]
          exact .overChunks (Connection.updateChunk_running s.connection b) {} _
  | _ => cases access

section Handle

variable {lent : List Nat} {h : Handle} {r : Request}

/-- A request of a suspended caller fails with the verdict of the compilers, and then has at most
set a connection up, or with an error of what has run. -/
theorem suspended_fails (access : r.isAccess = true) (sound : h.Sound lent) (fates : List Fate) :
    r.suspended.Ends ⟨h, fates⟩ (fun _ _ => True) fun e t =>
      h.Fails (r.verdict h.catalog.current h.settings) e t.state := by
  -- a query and a bulk update are checked before a session is opened
  have before {α : Type} {verdict : Except Error Unit} {call : Attempt (Timed Handle) Error α}
      (follows : call.Follows verdict ⟨h, fates⟩) : call.Ends ⟨h, fates⟩ (fun _ _ => True)
        fun e t => h.Fails verdict e t.state := by
    refine follows.mono (fun _ _ _ => trivial) ?_
    rintro e next (⟨found, rfl⟩ | ⟨_, failed⟩)
    · exact .inl ⟨found, .inl rfl⟩
    · exact .inr failed
  cases r with
  | select query =>
      refine .wrapped (.after rfl (before (.plan (fun plan => ?_) _)))
      exact Handle.Async.withSession_running fun s =>
        s.run_running (Connection.select_running s.connection plan)
  | insert table rows =>
      refine .wrapped (Handle.Async.withSession_fails sound fates fun s same t => ?_)
      rw [← same]
      exact .tracked (fun i => s.run_running (Connection.insert_running s.connection i)) t
  | update table set filter =>
      refine .wrapped (Handle.Async.withSession_fails sound fates fun s same t => ?_)
      rw [← same]
      exact .tracked (fun u => s.run_running (Connection.update_running s.connection u)) t
  | delete table filter =>
      refine .wrapped (Handle.Async.withSession_fails sound fates fun s same t => ?_)
      rw [← same]
      exact .tracked (fun d => s.run_running (Connection.delete_running s.connection d)) t
  | bulkUpdate table rows keys size =>
      refine .wrapped ?_
      unfold Handle.Async.bulkUpdate
      refine .after rfl (.after rfl (before (.tracked (fun request => ?_) _)))
      cases request with
      | none => exact .pure _
      | some b => exact Handle.Async.updateChunks_running b {} _
  | _ => cases access

theorem onHandle_fails (access : r.isAccess = true) (sound : h.Sound lent) :
    r.onHandle.Ends h (fun _ _ => True) (h.Fails (r.verdict h.catalog.current h.settings)) := by
  cases r with
  | select query =>
      rw [onHandle, Handle.select_eq]
      refine .wrapped (.after rfl (Handle.fails_of_follows (.plan (fun plan => ?_) h)))
      exact Handle.withConnection_running fun c => Connection.select_running c plan
  | insert table rows =>
      rw [onHandle, Handle.insert_eq]
      refine .wrapped (.after rfl (Handle.withConnection_fails sound fun c s => ?_))
      exact .tracked (Connection.insert_running c) s
  | update table set filter =>
      rw [onHandle, Handle.update_eq]
      refine .wrapped (.after rfl (Handle.withConnection_fails sound fun c s => ?_))
      exact .tracked (Connection.update_running c) s
  | delete table filter =>
      rw [onHandle, Handle.delete_eq]
      refine .wrapped (.after rfl (Handle.withConnection_fails sound fun c s => ?_))
      exact .tracked (Connection.delete_running c) s
  | bulkUpdate table rows keys size =>
      rw [onHandle, Handle.bulkUpdate_eq_blocking]
      refine .wrapped (.after rfl (.after rfl (Handle.fails_of_follows (.tracked
        (fun request => ?_) h))))
      cases request with
      | none => exact .pure _
      | some b =>
          refine .overChunks (fun chunk => ?_) {} _
          exact Handle.withConnection_running fun c => Connection.updateChunk_running c b chunk
  | _ => cases access

end Handle

end Request

/-- What the compilers can say of a request is told apart from every error of what runs. A request
that ends in such an error, in a session or on a handle, has got it from its compiler and has run
nothing: no statement was counted, and the content, the open transactions and the numbers of the
rows inserted last are as they were. So it is for suspended callers, whatever becomes of the work
that they wait for. -/
theorem rejected_requests_run_nothing :
    ((∀ (query : Query) current, Rejects (query.build current)) ∧
      (∀ current table rows, Rejects (Insert.compile current table rows)) ∧
      (∀ current table set filter, Rejects (Update.compile current table set filter)) ∧
      (∀ current table filter, Rejects (Delete.compile current table filter)) ∧
      ∀ current table rows keys size, Rejects (BulkUpdate.compile current table rows keys size)) ∧
    (∀ (r : Request), r.isAccess = true →
      (∀ (s : Session) settings (store : Store) e next,
        (r.inSession s settings).outcome store = (.error e, next) →
        if e.isCompileError then r.verdict s.snapshot settings = .error e ∧ next = store
        else r.verdict s.snapshot settings = .ok ()) ∧
      (∀ (s : AsyncSession) settings (before next : Timed Store) e,
        (r.inAsyncSession s settings).outcome before = (.error e, next) →
        if e.isCompileError then r.verdict s.snapshot settings = .error e ∧ next = before
        else r.verdict s.snapshot settings = .ok ()) ∧
      (∀ lent (h : Handle) e next, h.Sound lent → r.onHandle.outcome h = (.error e, next) →
        e.isCompileError = true →
          r.verdict h.catalog.current h.settings = .error e ∧ h.store.Untouched next.store) ∧
      ∀ lent (h : Handle) fates e next, h.Sound lent →
        r.suspended.outcome ⟨h, fates⟩ = (.error e, next) → e.isCompileError = true →
          r.verdict h.catalog.current h.settings = .error e ∧
            h.store.Untouched next.state.store) ∧
    (Handle.acquire : Attempt Handle Error Nat).FailsRunning ∧
      ∀ c, (∀ query, (Connection.select c query : Attempt Store Error _).FailsRunning) ∧
        (∀ i, (Connection.insert c i : Attempt Store Error _).FailsRunning) ∧
        (∀ u, (Connection.update c u : Attempt Store Error _).FailsRunning) ∧
        (∀ d, (Connection.delete c d : Attempt Store Error _).FailsRunning) ∧
        ∀ b rows, (Connection.updateChunk c b rows : Attempt Store Error _).FailsRunning := by
  -- a verdict that was followed, told by the error
  have told {σ α : Type} {r : Request} {current : Snapshot} {settings : Settings}
      {call : Attempt σ Error α} {s next : σ} {e : Error}
      (follows : call.Follows (r.verdict current settings) s)
      (ended : call.outcome s = (.error e, next)) :
      if e.isCompileError then r.verdict current settings = .error e ∧ next = s
      else r.verdict current settings = .ok () := by
    rcases follows.holds_error ended with ⟨rejected, same⟩ | ⟨accepted, failed⟩
    · rw [if_pos (r.rejects_verdict _ _ e rejected)]
      exact ⟨rejected, same⟩
    · rw [if_neg (by simp [failed])]
      exact accepted
  have untouched {verdict : Except Error Unit} {h next : Handle} {e : Error}
      (fails : h.Fails verdict e next) (found : e.isCompileError = true) :
      verdict = .error e ∧ h.store.Untouched next.store := by
    rcases fails with ⟨rejected, setUp⟩ | failed
    · exact ⟨rejected, setUp.untouched⟩
    · exact nomatch failed.symm.trans found
  refine ⟨⟨Query.rejects_build, Insert.rejects_compile, Update.rejects_compile,
    Delete.rejects_compile, BulkUpdate.rejects_compile⟩, fun r access => ⟨?_, ?_, ?_, ?_⟩,
    Handle.acquire_running, fun c => ?_⟩
  · exact fun s settings store e next ended =>
      told (Request.inSession_follows access s settings store) ended
  · exact fun s settings before next e ended =>
      told (Request.inAsyncSession_follows access s settings before) ended
  · exact fun lent h e next sound ended found =>
      untouched ((Request.onHandle_fails access sound).holds_error ended) found
  · exact fun lent h fates e next sound ended found =>
      untouched ((Request.suspended_fails access sound fates).holds_error ended) found
  · exact ⟨Connection.select_running c, Connection.insert_running c, Connection.update_running c,
      Connection.delete_running c, Connection.updateChunk_running c⟩

def suspendedKennel : Handle := { kennelHandle with engine := .async }

theorem sound_suspendedKennel : suspendedKennel.Sound [] :=
  ⟨(sound_kennelWhen "Rex").pool, (sound_kennelWhen "Rex").store⟩

def colouredPet : Request := .insert "pets" (.many [.ofList [("colour", .text "red")]])

theorem rejected_requests_run_nothing_kennel :
    colouredPet.isAccess = true ∧ suspendedKennel.Sound [] ∧
    (colouredPet.onHandle.outcome suspendedKennel).1 =
      .error (.unknownColumn "pets" "colour") ∧
    colouredPet.verdict kennelHandle.catalog.current kennelHandle.settings =
      .error (.unknownColumn "pets" "colour") ∧
    suspendedKennel.store.Untouched (colouredPet.onHandle.outcome suspendedKennel).2.store := by
  obtain ⟨_, _, handles, _⟩ := rejected_requests_run_nothing.2.1 colouredPet rfl
  obtain ⟨rejected, untouched⟩ :=
    handles [] suspendedKennel (.unknownColumn "pets" "colour") _ sound_suspendedKennel rfl rfl
  exact ⟨rfl, sound_suspendedKennel, rfl, rejected, untouched⟩

end TableAccess
