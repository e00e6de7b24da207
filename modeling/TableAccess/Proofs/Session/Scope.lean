import TableAccess.Proofs.Session.BulkUpdate
import TableAccess.Proofs.Session.Requests
import TableAccess.Proofs.Session.Timeouts

/-!
# Scopes

A scope is all or nothing: the store holds what its work has made of it if the work succeeds and its
transaction can be committed, and what it held before in every other case. Within a scope this does
not hold of the single request: one that fails keeps what it has done until the scope decides. A
suspended caller that waits in vain for the end of its scope does not know how it was decided.
-/

namespace TableAccess

open Attempt (Ends)
open Machine (Aspect Laws Transacts)

/-- A tracker ends as committed or as rolled back, as its change turns out. -/
theorem Tracker.follow_phase {σ α β : Type} (table : String) (operation : Operation)
    (compiled : Except Error β) (run : β → Attempt σ Error α) (s : σ) :
    let followed := (follow table operation compiled run s).1
    (∀ v, followed.1 = .ok v → followed.2.phase = .committed) ∧
      ∀ e, followed.1 = .error e → followed.2.phase = .rolledBack := by
  cases compiled with
  | error e => exact ⟨fun _ => nofun, fun _ _ => rfl⟩
  | ok request =>
      have ended : (follow table operation (.ok request) run s).1 =
          (⟨table, operation, .executing⟩ : Tracker).finish ((run request).outcome s).1 := rfl
      dsimp only
      rw [ended]
      cases ((run request).outcome s).1 with
      | ok v => exact ⟨fun _ _ => rfl, fun _ => nofun⟩
      | error e => exact ⟨fun _ => nofun, fun _ _ => rfl⟩

section Machine

variable {σ α : Type} [Machine σ] {v : Aspect σ} {steady plain : String → Prop} {lent : List Nat}
  {h g : Handle σ} {db : Database} {x : Content} {fates : List Fate} {work : Work α}

/-! ## Work inside a scope -/

namespace Work

theorem run_ends {opened : Scope} {settings : Settings} {value : α → σ → Prop}
    {error : Error → σ → Prop} (same : g.settings = settings)
    (ends : (work.inSession opened.session settings).Ends g.store value error) :
    (work.run opened).Ends g (fun w next => ∃ s, next = { g with store := s } ∧ value w s)
      fun e next => ∃ s, next = { g with store := s } ∧ error e s := by
  subst same
  rw [run_eq]
  exact .after rfl (.onPart (ends.mono (fun _ s holds => ⟨s, rfl, holds⟩) fun _ s holds =>
    ⟨s, rfl, holds⟩))

theorem runSuspended_ends {s : AsyncSession} {settings : Settings} {value : α → Timed σ → Prop}
    {error : Error → Timed σ → Prop} (same : g.settings = settings)
    (ends : (work.inAsyncSession s settings).Ends ⟨g.store, fates⟩ value error) :
    (work.runSuspended s).Ends ⟨g, fates⟩
      (fun w t => ∃ u, t = ⟨{ g with store := u.state }, u.fates⟩ ∧ value w u)
      fun e t => ∃ u, t = ⟨{ g with store := u.state }, u.fates⟩ ∧ error e u := by
  subst same
  exact .after rfl (Handle.Async.onStore_ends (ends.mono (fun _ u holds => ⟨u, rfl, holds⟩)
    fun _ u holds => ⟨u, rfl, holds⟩))

end Work

namespace Handle

/-! ## Entering -/

/-- A handle from which a scope has borrowed a connection and begun a transaction on it. -/
structure Entered (v : Aspect σ) (lent : List Nat) (h : Handle σ) (db : Database) (opened : Scope)
    (g : Handle σ) : Prop extends Beside (opened.session.connection :: lent) h g where
  fresh : opened.session.connection ∉ lent
  began : opened.began = true
  snapshot : opened.session.snapshot = h.catalog.current
  within : v.Within opened.session.connection db { database := db } g.store

theorem Blocking.enterScope_entered (laws : Transacts v) (settled : Settled v lent db h)
    (mode : Mode) : (Blocking.enterScope mode : Attempt (Handle σ) Error Scope).Ends h
      (fun opened next => Entered v lent h db opened next)
      fun _ next => After v lent h db next := by
  unfold Blocking.enterScope
  refine (acquire_after laws settled).bind ?_ fun _ _ kept => kept
  rintro c g ⟨fresh, held⟩
  have known : v.known c := settled.knows c fresh
  refine .after rfl (.observing (.onPart ?_))
  refine (Connection.enter_within laws known held.store mode).mono ?_ ?_
  · rintro _ s ⟨rfl, within⟩
    exact .pure ⟨held.toBeside.withStore s, fresh, rfl, congrArg Catalog.current held.catalog, within⟩
  · exact fun e s rest => .after rfl (.throw (release_after laws (held.withStore rest) known))

/-- What a session leaves behind is settled when it is dropped. -/
theorem Async.drop_after (laws : Transacts v) {s : AsyncSession} (known : v.known s.connection)
    (beside : Beside (s.connection :: lent) h g) {store : σ} (leaves : s.Leaves v db store) :
    After v lent h db (Async.drop s { g with store }) := by
  have beside := beside.withStore store
  unfold Async.drop
  rcases leaves with rest | ⟨opened, x, within⟩
  · split
    · exact settle_after laws ⟨beside, rest⟩ known
    · exact giveBack_after ⟨beside, rest⟩
  · rw [if_pos opened]
    exact settle_within laws beside within

/-- A transaction that is begun late is unknown to the session, whose connection comes back with
it. -/
theorem Async.enterScope_ends (laws : Transacts v) (settled : Settled v lent db h) (mode : Mode)
    (fates : List Fate) :
    (Async.enterScope mode : Attempt (Timed (Handle σ)) Error AsyncSession).Ends ⟨h, fates⟩
      (fun s t => Entered v lent h db s.toScope t.state ∧
        s.limit = h.settings.operationTimeout ∧ t.fates ⊆ fates)
      fun e t => After v lent h db t.state ∨
        e = .queryTimeout h.settings.operationTimeout ∧ .late ∈ fates ∧
          ∃ c, c ∉ lent ∧ v.Within c db { database := db } t.state.store := by
  unfold Async.enterScope
  refine (openSession_after laws settled fates).bind ?_ fun _ _ after => .inl after
  rintro s ⟨g, left⟩ ⟨⟨fresh, snapshot, limit, closed, _, held⟩, rfl⟩
  have known : v.known s.connection := settled.knows _ fresh
  have back {store : σ} (rest : v.Rest db store) : After v lent h db (drop s { g with store }) :=
    drop_after laws known held.toBeside (.inl rest)
  have begun : (s.begin mode : Attempt (Timed σ) Error AsyncSession).Ends ⟨g.store, left⟩ _ _ :=
    s.noted_ends true (Connection.begin_within laws known held.store mode)
  refine .observing (onStore_ends (begun.mono ?_ ?_))
  · rintro _ t ⟨rfl, within, fewer⟩
    exact .pure ⟨⟨held.toBeside.withStore t.state, fresh, rfl, snapshot, within⟩, limit, fewer⟩
  · rintro e t (rest | ⟨rfl, ⟨_, same⟩ | ⟨late, within | ⟨_, rest⟩⟩ | ⟨_, same⟩⟩)
    · exact .after rfl (.throw (.inl (back rest)))
    · exact .after rfl (.throw (.inl (back (same ▸ held.store))))
    · refine .after rfl (.throw (.inr ⟨limit ▸ rfl, late, s.connection, fresh, ?_⟩))
      unfold drop giveBack
      rw [closed]
      exact within
    · exact .after rfl (.throw (.inl (back rest)))
    · exact .after rfl (.throw (.inl (back (same ▸ laws.interrupt_closed known held.store))))

/-! ## Leaving -/

/-- What a scope leaves behind, by the end of its work. -/
theorem Blocking.leaveScope_after (laws : Transacts v) {opened : Scope}
    (began : opened.began = true) (known : v.known opened.session.connection)
    (beside : Beside (opened.session.connection :: lent) h g)
    (within : v.Within opened.session.connection db x g.store) (result : Except Error α) :
    (Blocking.leaveScope opened result).Ends g
      (fun w next => result = .ok w ∧ After v lent h x.database next ∧
        ((Connection.commit opened.session.connection).outcome g.store).1 = .ok ())
      fun e next => After v lent h db next ∧ (result = .error e ∨ (∃ w, result = .ok w) ∧
        ((Connection.commit opened.session.connection).outcome g.store).1 = .error e) := by
  have back {later : Database} {s : σ} (rest : v.Rest later s) :
      After v lent h later (release opened.session.connection { g with store := s }) :=
    release_after laws ⟨beside.withStore s, rest⟩ known
  unfold Blocking.leaveScope Connection.leave
  dsimp only
  rw [began]
  refine .observing (.onPart ?_)
  cases result with
  | ok w =>
      refine (Connection.conclude_ok_rest laws within w).mono ?_ ?_
      · rintro _ t ⟨rfl, _, committed, rest⟩
        exact .after rfl (.of_eq_ok rfl ⟨rfl, back rest, congrArg Prod.fst committed⟩)
      · rintro e t ⟨⟨_, failed⟩, rest⟩
        exact .after rfl (.of_eq_error rfl ⟨back rest, .inr ⟨⟨w, rfl⟩, congrArg Prod.fst failed⟩⟩)
  | error e =>
      refine (Connection.fail_rest laws within e).mono (fun _ _ never => never.elim) ?_
      rintro _ t ⟨rfl, rest⟩
      exact .after rfl (.of_eq_error rfl ⟨back rest, .inl rfl⟩)

/-- A suspended caller may also wait in vain for the end of a scope, which is decided one way or the
other. -/
theorem Async.leaveScope_ends (fates : List Fate) (laws : Transacts v) {s : AsyncSession}
    (opened : s.transactionOpen = true) (known : v.known s.connection)
    (beside : Beside (s.connection :: lent) h g) (within : v.Within s.connection db x g.store)
    (result : Except Error α) : (Async.leaveScope s result).Ends ⟨g, fates⟩
      (fun w t => result = .ok w ∧ After v lent h x.database t.state ∧
        ((Connection.commit s.connection).outcome g.store).1 = .ok ())
      fun e t =>
        After v lent h db t.state ∧ (result = .error e ∨ (∃ w, result = .ok w) ∧
          (e = .queryTimeout s.limit ∧ fates ≠ [] ∨
            ((Connection.commit s.connection).outcome g.store).1 = .error e)) ∨
        After v lent h x.database t.state ∧ (∃ w, result = .ok w) ∧
          e = .queryTimeout s.limit ∧ .late ∈ fates := by
  have back {left : AsyncSession} {later : Database} {t : σ}
      (same : left.connection = s.connection) (leaves : left.Leaves v later t) :
      After v lent h later (drop left { g with store := t }) :=
    drop_after laws (same ▸ known) (same ▸ beside) leaves
  have left : (onStore (s.leave result)).Ends ⟨g, fates⟩ _ _ :=
    onStore_holds (s.leave_ends laws (t := ⟨g.store, fates⟩) known opened within result)
  unfold Async.leaveScope
  refine left.bind ?_ fun _ _ ⟨_, _, never⟩ => never.elim
  rintro ⟨ended, last⟩ ⟨_, rest⟩ ⟨store, rfl, same, holds⟩
  refine .after rfl ?_
  cases ended with
  | ok w =>
      obtain ⟨rfl, leaves, committed⟩ := holds
      exact .of_eq_ok rfl ⟨rfl, back same leaves, committed⟩
  | error e =>
      refine .of_eq_error rfl ?_
      rcases holds with ⟨leaves, why⟩ | ⟨leaves, why⟩
      · exact .inl ⟨back same leaves, why⟩
      · exact .inr ⟨back same leaves, why⟩

/-- What was lost while the transaction was open is not committed any more. -/
theorem Async.leaveScope_idle (laws : Transacts v) {s : AsyncSession} (known : v.known s.connection)
    (idle : v.Idle g.store) (result : Except Error α) :
    (Async.leaveScope s result).Ends ⟨g, fates⟩ (fun _ _ => False) fun _ _ => True := by
  have left : (onStore (s.leave result)).Ends ⟨g, fates⟩ _ _ :=
    onStore_holds (s.leave_idle laws (t := ⟨g.store, fates⟩) known idle result)
  unfold Async.leaveScope
  refine left.bind ?_ fun _ _ _ => trivial
  rintro ⟨_, last⟩ ⟨_, rest⟩ ⟨store, rfl, e, rfl⟩
  exact .after rfl (.of_eq_error rfl trivial)

/-! ## In time -/

theorem enterScope_entered (laws : Transacts v) (settled : Settled v lent db h) (mode : Mode) :
    (enterScope mode : Attempt (Handle σ) Error Scope).Ends h
      (fun opened next => Entered v lent h db opened next)
      fun _ next => After v lent h db next := by
  refine byEngine_ends (fun _ => Blocking.enterScope_entered laws settled mode) ?_
  refine (Async.enterScope_ends laws settled mode []).bind ?_ ?_
  · exact fun s t ⟨entered, _⟩ => .pure entered
  · rintro e t (after | ⟨_, never, _⟩)
    · exact after
    · cases never

theorem leaveScope_after (laws : Transacts v) {opened : Scope} (began : opened.began = true)
    (known : v.known opened.session.connection)
    (beside : Beside (opened.session.connection :: lent) h g)
    (within : v.Within opened.session.connection db x g.store) (result : Except Error α) :
    (leaveScope opened result).Ends g
      (fun w next => result = .ok w ∧ After v lent h x.database next ∧
        ((Connection.commit opened.session.connection).outcome g.store).1 = .ok ())
      fun e next => After v lent h db next ∧ (result = .error e ∨ (∃ w, result = .ok w) ∧
        ((Connection.commit opened.session.connection).outcome g.store).1 = .error e) := by
  refine byEngine_ends (fun _ => Blocking.leaveScope_after laws began known beside within result) ?_
  refine .after rfl ((Async.leaveScope_ends (s := opened.suspended g.settings.operationTimeout) _
    laws began known beside within result).mono (fun _ _ kept => kept) ?_)
  rintro e t (⟨after, own | ⟨ok, ⟨_, never⟩ | failed⟩⟩ | ⟨_, _, _, never⟩)
  · exact ⟨after, .inl own⟩
  · exact (never rfl).elim
  · exact ⟨after, .inr ⟨ok, failed⟩⟩
  · cases never

/-! ## Scopes -/

/-- A scope taken apart: how it is entered, what is run inside it, and where this happens. -/
structure Parts (σ τ ι α : Type) where
  enter : Attempt τ Error ι
  run : ι → Attempt τ Error α
  connection : ι → Nat
  handle : τ → Handle σ

def parts (mode : Mode) (work : Work α) : Parts σ (Handle σ) Scope α where
  enter := enterScope mode
  run opened := work.run opened
  connection opened := opened.session.connection
  handle := id

def Async.parts (mode : Mode) (work : Work α) : Parts σ (Timed (Handle σ)) AsyncSession α where
  enter := Async.enterScope mode
  run s := work.runSuspended s
  connection s := s.connection
  handle t := t.state

section Decided

variable {τ ι : Type}

/-- The work inside a scope has run to its end. The transaction of the scope is still open on its
connection, and has come to a content. -/
structure Parts.Worked (p : Parts σ τ ι α) (v : Aspect σ) (db : Database) (start : τ) (c : Nat)
    (result : Except Error α) (s : σ) (x : Content) : Prop where
  ran : ∃ opened entered reached, p.enter.outcome start = (.ok opened, entered) ∧
    (p.run opened).outcome entered = (result, reached) ∧ p.connection opened = c ∧
      (p.handle reached).store = s
  within : v.Within c db x s
  opened : Machine.isOpen s c = true

/-- What becomes of a scope. It cannot be entered; or its work runs to the end, and the store holds
what the work has made of it exactly if the work succeeds and its transaction is committed. -/
inductive Decided (v : Aspect σ) (lent : List Nat) (h : Handle σ) (db : Database)
    (p : Parts σ τ ι α) (start : τ) : Except Error α × τ → Prop where
  | refused {e : Error} {t next : τ} (refused : p.enter.outcome start = (.error e, t))
      (kept : Returned v lent h db (p.handle next)) : Decided v lent h db p start (.error e, next)
  | failed {c : Nat} {e : Error} {s : σ} {x : Content} {next : τ}
      (worked : p.Worked v db start c (.error e) s x)
      (kept : Returned v lent h db (p.handle next)) : Decided v lent h db p start (.error e, next)
  | uncommitted {c : Nat} {w : α} {e : Error} {s : σ} {x : Content} {next : τ}
      (worked : p.Worked v db start c (.ok w) s x)
      (refused : ((Connection.commit c).outcome s).1 = .error e)
      (kept : Returned v lent h db (p.handle next)) : Decided v lent h db p start (.error e, next)
  | committed {c : Nat} {w : α} {s : σ} {x : Content} {next : τ}
      (worked : p.Worked v db start c (.ok w) s x)
      (committed : ((Connection.commit c).outcome s).1 = .ok ())
      (made : Returned v lent h x.database (p.handle next)) :
      Decided v lent h db p start (.ok w, next)

/-- What becomes of a scope for whose beginning or end a suspended caller waits in vain. A
transaction that is committed late is kept; one that is begun late stays open. -/
inductive InVain (v : Aspect σ) (lent : List Nat) (h : Handle σ) (db : Database)
    (p : Parts σ τ ι α) (start : τ) (late : Prop) : τ → Prop where
  | undone {c : Nat} {w : α} {s : σ} {x : Content} {next : τ}
      (worked : p.Worked v db start c (.ok w) s x) (kept : Returned v lent h db (p.handle next)) :
      InVain v lent h db p start late next
  | committed {c : Nat} {w : α} {s : σ} {x : Content} {next : τ} (later : late)
      (worked : p.Worked v db start c (.ok w) s x)
      (made : Returned v lent h x.database (p.handle next)) : InVain v lent h db p start late next
  | begun {c : Nat} {e : Error} {t next : τ} (later : late)
      (refused : p.enter.outcome start = (.error e, t)) (fresh : c ∉ lent)
      (within : v.Within c db { database := db } (p.handle next).store) :
      InVain v lent h db p start late next

end Decided

/-- What becomes of a scope of a suspended caller, who may wait in vain. -/
def Async.Decided (v : Aspect σ) (lent : List Nat) (h : Handle σ) (db : Database) (mode : Mode)
    (work : Work α) (fates : List Fate) (ended : Except Error α × Timed (Handle σ)) : Prop :=
  Handle.Decided v lent h db (Async.parts mode work) ⟨h, fates⟩ ended ∨
    ended.1 = .error (.queryTimeout h.settings.operationTimeout) ∧
      InVain v lent h db (Async.parts mode work) ⟨h, fates⟩ (.late ∈ fates) ended.2

variable (laws : Laws v steady plain)

include laws

theorem scope_decided (settled : Settled v lent db h) (mode : Mode)
    (only : work.ChangesOnly steady h.catalog.current) :
    Decided v lent h db (parts mode work) h
      ((scope mode fun opened => work.run opened).outcome h) := by
  refine Ends.holds ?_
  unfold scope
  refine ((enterScope_entered laws.toTransacts settled mode).and (.itself _ _)).bind ?_ ?_
  · rintro opened g ⟨entered, entering⟩
    have known : v.known opened.session.connection := settled.knows _ entered.fresh
    have inside := Ends.and (Work.run_ends rfl ((work.inSession_inside laws g.settings known
      (entered.snapshot.symm ▸ only)).ends ⟨_, entered.within⟩)) (.itself _ g)
    have leaving {result : Except Error α} {s : σ} {x : Content}
        (ran : (work.run opened).outcome g = (result, { g with store := s }))
        (within : v.Within opened.session.connection db x s) :
        (leaveScope opened result).Ends { g with store := s }
          (fun w next => Decided v lent h db (parts mode work) h (.ok w, next))
          fun e next => Decided v lent h db (parts mode work) h (.error e, next) := by
      have worked : (parts mode work).Worked v db h opened.session.connection result s x :=
        ⟨⟨opened, g, _, entering, ran, rfl, rfl⟩, within, laws.opened within⟩
      refine (leaveScope_after laws.toTransacts entered.began known (entered.toBeside.withStore s)
        within result).mono ?_ ?_
      · rintro w next ⟨rfl, after, committed⟩
        exact .committed worked committed (after.returned laws.toLends settled)
      · rintro e next ⟨after, rfl | ⟨⟨w, rfl⟩, failed⟩⟩
        · exact .failed worked (after.returned laws.toLends settled)
        · exact .uncommitted worked failed (after.returned laws.toLends settled)
    refine .observing (inside.mono ?_ ?_)
    · rintro w _ ⟨⟨s, rfl, x, within⟩, ran⟩
      exact leaving ran within
    · rintro e _ ⟨⟨s, rfl, x, within⟩, ran⟩
      exact leaving ran within
  · rintro e next ⟨after, refused⟩
    exact .refused refused (after.returned laws.toLends settled)

/-- No change is interrupted. -/
theorem Async.scope_decided (settled : Settled v lent db h) (mode : Mode)
    (only : work.ChangesOnly steady h.catalog.current) (calm : .interrupted ∉ fates) :
    Async.Decided v lent h db mode work fates
      ((Async.scope mode fun s => work.runSuspended s).outcome ⟨h, fates⟩) := by
  refine Ends.holds ?_
  unfold Async.scope
  refine ((enterScope_ends laws.toTransacts settled mode fates).and (.itself _ _)).bind ?_ ?_
  · rintro s ⟨g, left⟩ ⟨⟨entered, limit, fewer⟩, entering⟩
    have known : v.known s.connection := settled.knows _ entered.fresh
    have only : work.ChangesOnly steady s.snapshot := by
      have same : s.snapshot = h.catalog.current := entered.snapshot
      exact same ▸ only
    have within : v.Inside s.connection db g.store := ⟨_, entered.within⟩
    have inside := Ends.and (Work.runSuspended_ends entered.settings
      ((work.inAsyncSession_inside laws h.settings limit known only calm).ends
        (s := ⟨g.store, left⟩) ⟨within, fewer⟩)) (.itself _ _)
    have leaving {result : Except Error α} {u : Timed σ} {x : Content} (fewer : u.fates ⊆ fates)
        (ran : (work.runSuspended s).outcome ⟨g, left⟩ =
          (result, ⟨{ g with store := u.state }, u.fates⟩))
        (within : v.Within s.connection db x u.state) :
        (leaveScope s result).Ends ⟨{ g with store := u.state }, u.fates⟩
          (fun w t => Async.Decided v lent h db mode work fates (.ok w, t))
          fun e t => Async.Decided v lent h db mode work fates (.error e, t) := by
      have worked : (Async.parts mode work).Worked v db ⟨h, fates⟩ s.connection result u.state x :=
        ⟨⟨s, ⟨g, left⟩, _, entering, ran, rfl, rfl⟩, within, laws.opened within⟩
      refine (leaveScope_ends _ laws.toTransacts entered.began known
        (entered.toBeside.withStore u.state) within result).mono ?_ ?_
      · rintro w t ⟨rfl, after, committed⟩
        exact .inl (.committed worked committed (after.returned laws.toLends settled))
      · rintro e t (⟨after, rfl | ⟨⟨w, rfl⟩, ⟨rfl, _⟩ | failed⟩⟩ | ⟨after, ⟨w, rfl⟩, rfl, late⟩)
        · exact .inl (.failed worked (after.returned laws.toLends settled))
        · exact .inr ⟨limit ▸ rfl, .undone worked (after.returned laws.toLends settled)⟩
        · exact .inl (.uncommitted worked failed (after.returned laws.toLends settled))
        · exact .inr ⟨limit ▸ rfl,
            .committed (fewer late) worked (after.returned laws.toLends settled)⟩
    refine .observing (inside.mono ?_ ?_)
    · rintro w _ ⟨⟨u, rfl, ⟨x, within⟩, fewer⟩, ran⟩
      exact leaving fewer ran within
    · rintro e _ ⟨⟨u, rfl, ⟨x, within⟩, fewer⟩, ran⟩
      exact leaving fewer ran within
  · rintro e t ⟨after | ⟨rfl, late, c, fresh, within⟩, refused⟩
    · exact .inl (.refused refused (after.returned laws.toLends settled))
    · exact .inr ⟨rfl, .begun late refused fresh within⟩

/-! ## Single changes -/

omit laws in
/-- A change of a handle that fails leaves the store as it was. A suspended caller who has waited in
vain does not know whether it has. -/
structure Whole (v : Aspect σ) (lent : List Nat) (h : Handle σ) (db : Database)
    (change : Attempt (Handle σ) Error α) (suspended : Attempt (Timed (Handle σ)) Error α) :
    Prop where
  inTime : change.Ends h (fun _ next => ∃ later, Returned v lent h later next)
    fun _ next => Returned v lent h db next
  inVain (fates : List Fate) : suspended.Ends ⟨h, fates⟩
    (fun w t => AsDone v lent h change w t.state)
    fun e t => Returned v lent h db t.state ∨ e = .queryTimeout h.settings.operationTimeout ∧
      ∃ w, AsDone v lent h change w t.state

omit laws in
theorem withSession_is_whole (laws : Transacts v) {change : Attempt (Handle σ) Error α}
    {work : AsyncSession → Attempt (Timed σ) Error α} {same : Session → Attempt σ Error α}
    (eq : change = withSession same)
    (awaits : ∀ s : AsyncSession, s.Awaits (work s) (same s.waiting))
    (settled : Settled v lent db h)
    (each : ∀ c t, v.known c → v.Rest db t → (same ⟨c, h.catalog.current⟩).Ends t
      (fun _ next => v.Idle next) fun _ next => v.Rest db next) :
    Whole v lent h db change (Async.withSession work) := by
  subst eq
  exact ⟨withSession_whole laws settled each, Async.withSession_after laws awaits settled each⟩

/-- Scopes are all or nothing on steady tables, and so are single changes of a handle; unless a
suspended caller waits in vain for the beginning of a scope, no transaction stays open on the
connection that was used. A bracket inside a scope is its body. -/
theorem scopes_are_whole (settled : Settled v lent db h) :
    (∀ (α : Type) (mode : Mode) (work : Work α), work.ChangesOnly steady h.catalog.current →
      Decided v lent h db (parts mode work) h
          ((scope mode fun opened => work.run opened).outcome h) ∧
        ∀ fates, .interrupted ∉ fates → Async.Decided v lent h db mode work fates
          ((Async.scope mode fun s => work.runSuspended s).outcome ⟨h, fates⟩)) ∧
    (∀ table, (∀ t, h.catalog.current.resolve table = .ok t → steady t.name) →
      (∀ rows, Whole v lent h db (insert table rows) (Async.insert table rows)) ∧
      (∀ set filter,
        Whole v lent h db (update table set filter) (Async.update table set filter)) ∧
      ∀ filter, Whole v lent h db (delete table filter) (Async.delete table filter)) ∧
    ∀ (α : Type) (c : Nat) (s : σ) (mode : Mode) (body : Attempt σ Error α),
      Machine.isOpen s c = true →
        (Connection.inTransaction c mode body).outcome s = body.outcome s := by
  refine ⟨fun α mode work only => ⟨scope_decided laws settled mode only, fun fates calm =>
    Async.scope_decided laws settled mode only calm⟩, fun table only => ⟨?_, ?_, ?_⟩, ?_⟩
  · exact fun rows => withSession_is_whole laws.toTransacts (insert_eq table rows)
      (fun s => s.insert_awaits table rows) settled fun c _ known rest =>
        Session.insert_whole (s := ⟨c, h.catalog.current⟩) laws known rest only rows
  · exact fun set filter => withSession_is_whole laws.toTransacts (update_eq table set filter)
      (fun s => s.update_awaits table set filter) settled fun c _ known rest =>
        Session.update_whole (s := ⟨c, h.catalog.current⟩) laws known rest only set filter
  · exact fun filter => withSession_is_whole laws.toTransacts (delete_eq table filter)
      (fun s => s.delete_awaits table filter) settled fun c _ known rest =>
        Session.delete_whole (s := ⟨c, h.catalog.current⟩) laws known rest only filter
  · exact fun _ c s mode body opened => Connection.inTransaction_joins opened mode body

/-! ## Changes inside a scope -/

theorem scope_courses (settled : Settled v lent db h) (mode : Mode)
    (only : work.ChangesOnly plain h.catalog.current) :
    (scope mode fun opened => work.run opened : Attempt (Handle σ) Error α).Ends h
      (fun w next => ∃ y, work.Course (fun request reply x y =>
          request.Effect h.catalog.current h.settings reply x y) { database := db } (.ok w) y ∧
        v.Rest y.database next.store)
      fun _ _ => True := by
  unfold scope
  refine (enterScope_entered laws.toTransacts settled mode).bind ?_ fun _ _ _ => trivial
  intro opened g entered
  have known : v.known opened.session.connection := settled.knows _ entered.fresh
  have course := Work.run_ends entered.settings (work.inSession_within laws h.settings known
    (entered.snapshot.symm ▸ only) entered.within)
  rw [entered.snapshot] at course
  have leaving (result : Except Error α) {s : σ} {y : Content}
      (within : v.Within opened.session.connection db y s) :=
    leaveScope_after laws.toTransacts entered.began known (entered.toBeside.withStore s) within result
  refine .observing (course.mono ?_ ?_)
  · rintro u _ ⟨s, rfl, y, taken, within⟩
    refine (leaving (.ok u) within).mono ?_ fun _ _ _ => trivial
    rintro w next ⟨same, after, _⟩
    cases same
    exact ⟨y, taken, after.store⟩
  · rintro e _ ⟨s, rfl, y, _, within⟩
    exact (leaving (.error e) within).mono (fun _ _ ⟨never, _⟩ => nomatch never) fun _ _ _ => trivial

/-- A suspended caller whose transaction was lost on the way never commits. -/
theorem Async.scope_courses (settled : Settled v lent db h) (mode : Mode)
    (only : work.ChangesOnly plain h.catalog.current) :
    (Async.scope mode fun s => work.runSuspended s).Ends ⟨h, fates⟩
      (fun w t => ∃ y, work.CourseInVain h.catalog.current h.settings { database := db } (.ok w) y ∧
        v.Rest y.database t.state.store)
      fun _ _ => True := by
  unfold Async.scope
  refine (enterScope_ends laws.toTransacts settled mode fates).bind ?_ fun _ _ _ => trivial
  rintro s ⟨g, left⟩ ⟨entered, limit, _⟩
  have known : v.known s.connection := settled.knows _ entered.fresh
  have snapshot : s.snapshot = h.catalog.current := entered.snapshot
  have within : v.Within s.connection db { database := db } g.store := entered.within
  have course := Work.runSuspended_ends entered.settings (work.inAsyncSession_within
    (t := ⟨g.store, left⟩) laws h.settings limit known (snapshot.symm ▸ only) within)
  rw [snapshot] at course
  have leaving (result : Except Error α) {u : Timed σ} {y : Content}
      (within : v.Within s.connection db y u.state) :=
    leaveScope_ends u.fates laws.toTransacts entered.began known
      (entered.toBeside.withStore u.state) within result
  have lost (result : Except Error α) {u : Timed σ} (idle : v.Idle u.state) :
      (leaveScope s result).Ends ⟨{ g with store := u.state }, u.fates⟩ (fun _ _ => False)
        fun _ _ => True :=
    leaveScope_idle (g := { g with store := u.state }) laws.toTransacts known idle result
  refine .observing (course.mono ?_ ?_)
  · rintro w _ ⟨u, rfl, ⟨y, taken, within⟩ | idle⟩
    · refine (leaving (.ok w) within).mono ?_ fun _ _ _ => trivial
      rintro _ t ⟨same, after, _⟩
      cases same
      exact ⟨y, taken, after.store⟩
    · exact (lost (.ok w) idle).mono (fun _ _ never => never.elim) fun _ _ _ => trivial
  · rintro e _ ⟨u, rfl, ⟨y, _, within⟩ | idle⟩
    · exact (leaving (.error e) within).mono (fun _ _ ⟨never, _⟩ => nomatch never)
        fun _ _ _ => trivial
    · exact (lost (.error e) idle).mono (fun _ _ never => never.elim) fun _ _ _ => trivial

/-- The course that the work of a committed scope on plain tables has taken: the store holds what
the effects of its requests, one after the other, come to. A change by rows that succeeded took
effect for all of its rows; one that failed, so that its tracker ended as rolled back, took effect
for those before the row at which it stopped, and for nothing of that row or of later ones. Of one
that a suspended caller waited for in vain nothing is known. -/
theorem scope_course (settled : Settled v lent db h) (mode : Mode)
    (only : work.ChangesOnly plain h.catalog.current) :
    (∀ w next, (scope mode fun opened => work.run opened).outcome h = (.ok w, next) →
      ∃ y, work.Course (fun request reply x y =>
          request.Effect h.catalog.current h.settings reply x y) { database := db } (.ok w) y ∧
        v.Rest y.database next.store) ∧
    (∀ fates w t, (Async.scope mode fun s => work.runSuspended s).outcome ⟨h, fates⟩ = (.ok w, t) →
      ∃ y, work.CourseInVain h.catalog.current h.settings { database := db } (.ok w) y ∧
        v.Rest y.database t.state.store) ∧
    ∀ (τ β γ : Type) (table : String) (operation : Operation) (compiled : Except Error β)
      (run : β → Attempt τ Error γ) (state : τ),
      let followed := (Tracker.follow table operation compiled run state).1
      (∀ w, followed.1 = .ok w → followed.2.phase = .committed) ∧
        ∀ e, followed.1 = .error e → followed.2.phase = .rolledBack :=
  ⟨fun _ _ => (scope_courses laws settled mode only).holds_ok,
    fun _ _ _ => (Async.scope_courses laws settled mode only).holds_ok,
    fun _ _ _ table operation compiled run state =>
      Tracker.follow_phase table operation compiled run state⟩

end Handle

end Machine

/-! ## Scopes on a pet and its owner -/

def kennelWhen (name : String) : Handle :=
  { kennelHandle with store := { database := kennel name } }

theorem sound_kennelWhen (name : String) : (kennelWhen name).Sound [] := by
  refine ⟨⟨.nil, ?_⟩, ?_, ?_⟩
  · exact fun _ member => nomatch member
  · exact fun _ member => nomatch member
  · exact fun _ member => nomatch member

def kennelView (name : String) : Aspect Store :=
  Store.aspect (fun _ _ => True) [] (kennelWhen name).store

theorem kennelView_laws (name : String) :
    Laws (kennelView name) (fun _ => True) fun _ => True :=
  Store.aspect_laws Store.upheld_true (sound_kennelWhen name).store

theorem settled_kennelWhen (name : String) :
    (kennelWhen name).Settled (kennelView name) [] (kennel name) :=
  (sound_kennelWhen name).settled

/-- Gives the pet a name and an owner. -/
def adoption (name : Value) (owner : Int32) : Work Unit :=
  .call (.bulkUpdate "pets" [petOf name owner] ["id"] none) fun reply =>
    .finish (reply.map fun _ => ())

def pupOf (name : Value) : RowValues := .ofList [("name", name), ("owner", .int 1)]

/-- Adds two pets, and goes on even if that fails. -/
def litter (first second : Value) : Work (Except Error Unit) :=
  .call (.insert "pets" (.many [pupOf first, pupOf second])) fun reply =>
    .finish (.ok (reply.map fun _ => ()))

def inScope {α : Type} (work : Work α) : Except Error α × Handle :=
  (Handle.scope .immediate fun opened => work.run opened).outcome kennelHandle

def inAsyncScope {α : Type} (work : Work α) (fates : List Fate) :
    Except Error α × Timed Handle :=
  (Handle.Async.scope .immediate fun s => work.runSuspended s).outcome ⟨kennelHandle, fates⟩

theorem scopes_are_whole_kennel :
    (Handle.Decided (kennelView "Rex") [] kennelHandle (kennel "Rex")
        (Handle.parts .immediate (adoption (.text "Max") 1)) kennelHandle
        (inScope (adoption (.text "Max") 1)) ∧
      (inScope (adoption (.text "Max") 1)).1 = .ok () ∧
      (inScope (adoption (.text "Max") 1)).2.store.database = kennel "Max") ∧
    ((inScope (adoption (.text "Max") 9)).1 = .error .owing ∧
      (inScope (adoption (.text "Max") 9)).2.store.database = kennel "Rex") ∧
    (Handle.Async.Decided (kennelView "Rex") [] kennelHandle (kennel "Rex") .immediate
        (adoption (.text "Max") 1) [.inTime, .late]
        (inAsyncScope (adoption (.text "Max") 1) [.inTime, .late]) ∧
      (inAsyncScope (adoption (.text "Max") 1) [.inTime, .late]).1 =
        .error (.queryTimeout 30000) ∧
      (inAsyncScope (adoption (.text "Max") 1) [.inTime, .late]).2.state.store.database =
        kennel "Max") := by
  obtain ⟨scopes, _⟩ := Handle.scopes_are_whole (kennelView_laws "Rex")
    (settled_kennelWhen "Rex")
  obtain ⟨decided, suspended⟩ := scopes Unit .immediate (adoption (.text "Max") 1)
    (.of_forall (fun _ => trivial) _ _)
  exact ⟨⟨decided, rfl, rfl⟩, ⟨rfl, rfl⟩, suspended [.inTime, .late] (by decide), rfl, rfl⟩

/-- The handle of the kennel when its only connection is lent. -/
def busyKennel : Handle :=
  { kennelHandle with
    settings := { kennelHandle.settings with maxSize := 1 }
    pool := { total := 1, opened := 1 } }

/-- A scope that cannot be entered fails although its body would not, and with an error that no
commit has. -/
theorem refused_scope_kennel :
    (Handle.scope .immediate (fun _ => pure ()) : Attempt Handle Error Unit).outcome busyKennel =
        (.error (.poolExhausted 1 1), busyKennel) ∧
      ∀ (c : Nat) (s : Store), ((Connection.commit c).outcome s).1 ≠ .error (.poolExhausted 1 1) := by
  refine ⟨rfl, fun c s => ?_⟩
  unfold Connection.commit
  rw [Attempt.outcome_mapError]
  cases ((Machine.commit c : Attempt Store Fault Unit).outcome s).1 with
  | ok _ => exact nofun
  | error fault => exact nofun

/-- Renames the pet, adds another one whatever has come of that, and fails. -/
def unheeding : Work Unit :=
  .call (.update "pets" (.ofList [("name", .text "Max")]) (.entries [("id", .scalar (.int 1))]))
    fun _ => .call (.insert "pets" (.single (pupOf (.text "Pup")))) fun _ => .finish (.error .owing)

/-- A change that is interrupted takes the transaction of its scope with it: what comes after it
stays although the scope fails. -/
example : (inAsyncScope unheeding [.inTime, .interrupted]).1 = .error .owing ∧
    ((inAsyncScope unheeding [.inTime, .interrupted]).2.state.store.database.table? "pets").map
      (fun t => t.rows) =
    some [⟨1, [.integer 1, .text "Rex", .integer 1]⟩,
      ⟨2, [.integer 2, .text "Pup", .integer 1]⟩] := by
  exact ⟨rfl, rfl⟩

theorem scope_course_kennel : ∃ y,
    (litter (.text "Max") .null).Course (fun request reply x y =>
        request.Effect kennelHandle.catalog.current kennelHandle.settings reply x y)
      { database := kennel "Rex" }
      (.ok (.error (.constraintViolation "pets" "NOT NULL constraint failed: pets.name"))) y ∧
    (kennelView "Rex").Rest y.database (inScope (litter (.text "Max") .null)).2.store :=
  (Handle.scope_course (kennelView_laws "Rex") (settled_kennelWhen "Rex") .immediate
    (.of_forall (fun _ => trivial) _ (litter (.text "Max") .null))).1 _ _ rfl

/-- An insert of two rows fails within a scope that is then committed, and its first row stays. -/
theorem failed_insert_stays_kennel :
    (inScope (litter (.text "Max") .null)).1 = .ok (.error (.constraintViolation "pets"
      "NOT NULL constraint failed: pets.name")) ∧
    ((inScope (litter (.text "Max") .null)).2.store.database.table? "pets").map
        (fun t => t.rows) =
      some [⟨1, [.integer 1, .text "Rex", .integer 1]⟩, ⟨2, [.integer 2, .text "Max", .integer 1]⟩]
    := by
  constructor
  · rfl
  · rfl

end TableAccess
