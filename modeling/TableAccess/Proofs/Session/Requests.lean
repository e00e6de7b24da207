import TableAccess.Proofs.Session.InTime

/-!
# Requests of a handle

A request of a handle runs on a connection of its own. It has the effect that its change has on
the content, or it fails and the content is as it was; in both cases the connection comes back
without a transaction. A suspended caller who has waited in vain does not know which of them it is.
-/

namespace TableAccess

open Attempt (Ends Keeps)
open Machine (Aspect Laws Transacts)

variable {σ α β : Type} [Machine σ] {v : Aspect σ} {steady plain : String → Prop} {db : Database}

/-! ## Changes in a transaction of their own -/

namespace Session

variable {s : Session} {t : σ}

/-- A change that a tracker follows, in a bracket on a connection without a transaction. -/
theorem tracked_rest (laws : Transacts v) {table : String} {operation : Operation}
    {compiled : Except Error β} {body : β → Attempt σ Error α} {c : Nat}
    {q : β → α → Content → Prop} (known : v.known c) (rest : v.Rest db t)
    (inner : ∀ request entered, compiled = .ok request →
      v.Within c db { database := db } entered → (body request).Ends entered
        (fun w next => ∃ y, q request w y ∧ v.Within c db y next)
        fun _ next => v.Inside c db next) :
    (Tracker.tracked table operation compiled fun request =>
        Connection.inTransaction c .immediate (body request)).Ends t
      (fun w next => ∃ request y, compiled = .ok request ∧ q request w y ∧
        v.Rest y.database next)
      fun _ next => v.Rest db next := by
  refine Tracker.tracked_ends (fun _ _ => rest) fun request found => ?_
  refine (Connection.inTransaction_rest (q := q request) laws known rest .immediate
    fun entered within => inner request entered found within).mono ?_ fun _ _ kept => kept
  exact fun w next ⟨y, holds, _, reached⟩ => ⟨request, y, found, holds, reached⟩

variable (laws : Laws v steady plain)

include laws

theorem insert_rest (known : v.known s.connection) (rest : v.Rest db t) {table : String}
    (only : ∀ t, s.snapshot.resolve table = .ok t → plain t.name) (rows : NewRows) :
    (s.insert table rows : Attempt σ Error InsertReport).Ends t
      (fun _ next => ∃ later, (∃ i y, Insert.compile s.snapshot table rows = .ok i ∧
        RowByRow i.rowChange i.rows { database := db } y ∧ y.database = later) ∧ v.Rest later next)
      fun _ next => v.Rest db next := by
  refine (tracked_rest (q := fun (i : Insert) _ y =>
    RowByRow i.rowChange i.rows { database := db } y) laws.toTransacts known rest
    fun i entered compiled within => ?_).mono ?_ fun _ _ kept => kept
  · exact (Connection.insertRows_within laws known (Insert.kind_of_compile only compiled)
      within).mono (fun _ _ done => done) fun _ _ ⟨y, _, held⟩ => ⟨y, held⟩
  · exact fun _ next ⟨i, y, compiled, done, reached⟩ =>
      ⟨y.database, ⟨i, y, compiled, done, rfl⟩, reached⟩

theorem update_rest (known : v.known s.connection) (rest : v.Rest db t) {table : String}
    (only : ∀ t, s.snapshot.resolve table = .ok t → plain t.name) (set : RowValues)
    (filter : Filter) : (s.update table set filter : Attempt σ Error Nat).Ends t
      (fun n next => ∃ later, (∃ u y, Update.compile s.snapshot table set filter = .ok u ∧
        db.prepareUpdate u = .ok () ∧ (Change.update u).outcome { database := db } = (.ok n, y) ∧
          y.database = later) ∧ v.Rest later next)
      fun _ next => v.Rest db next := by
  refine (tracked_rest (q := fun (u : Update) n y => db.prepareUpdate u = .ok () ∧
    (Change.update u).outcome { database := db } = (.ok n, y)) laws.toTransacts known rest
    fun u entered compiled within => ?_).mono ?_ fun _ _ kept => kept
  · refine .mapError ((laws.update (Update.kind_of_compile only compiled) within).mono ?_ ?_)
    · exact fun _ _ ⟨y, prepared, changed, held⟩ => ⟨y, ⟨prepared, changed⟩, held⟩
    · exact fun _ _ ⟨y, _, held⟩ => ⟨y, held⟩
  · exact fun _ next ⟨u, y, compiled, ⟨prepared, changed⟩, reached⟩ =>
      ⟨y.database, ⟨u, y, compiled, prepared, changed, rfl⟩, reached⟩

theorem delete_rest (known : v.known s.connection) (rest : v.Rest db t) {table : String}
    (only : ∀ t, s.snapshot.resolve table = .ok t → plain t.name) (filter : Filter) :
    (s.delete table filter : Attempt σ Error Nat).Ends t
      (fun n next => ∃ later, (∃ d y, Delete.compile s.snapshot table filter = .ok d ∧
        db.prepareDelete d = .ok () ∧ (Change.delete d).outcome { database := db } = (.ok n, y) ∧
          y.database = later) ∧ v.Rest later next)
      fun _ next => v.Rest db next := by
  refine (tracked_rest (q := fun (d : Delete) n y => db.prepareDelete d = .ok () ∧
    (Change.delete d).outcome { database := db } = (.ok n, y)) laws.toTransacts known rest
    fun d entered compiled within => ?_).mono ?_ fun _ _ kept => kept
  · refine .mapError ((laws.delete (Delete.kind_of_compile only compiled) within).mono ?_ ?_)
    · exact fun _ _ ⟨y, prepared, changed, held⟩ => ⟨y, ⟨prepared, changed⟩, held⟩
    · exact fun _ _ ⟨y, _, held⟩ => ⟨y, held⟩
  · exact fun _ next ⟨d, y, compiled, ⟨prepared, changed⟩, reached⟩ =>
      ⟨y.database, ⟨d, y, compiled, prepared, changed, rfl⟩, reached⟩

/-! ### Steady tables -/

omit laws in
/-- A change of steady tables in a transaction of its own fails without a trace. -/
theorem tracked_whole (laws : Transacts v) {table : String} {operation : Operation}
    {compiled : Except Error β} {body : β → Attempt σ Error α} {c : Nat} (known : v.known c)
    (rest : v.Rest db t) (keeps : ∀ request, compiled = .ok request →
      (body request).Keeps (v.Inside c db)) :
    (Tracker.tracked table operation compiled fun request =>
        Connection.inTransaction c .immediate (body request)).Ends t
      (fun _ next => v.Idle next) fun _ next => v.Rest db next := by
  refine (tracked_rest (q := fun _ _ _ => True) laws known rest
    fun request entered found within => ?_).mono ?_ fun _ _ kept => kept
  · exact ((keeps request found).ends ⟨_, within⟩).mono (fun _ _ ⟨y, held⟩ => ⟨y, trivial, held⟩)
      fun _ _ inside => inside
  · exact fun _ next ⟨_, y, _, _, reached⟩ => ⟨y.database, reached⟩

theorem insert_whole (known : v.known s.connection) (rest : v.Rest db t) {table : String}
    (only : ∀ t, s.snapshot.resolve table = .ok t → steady t.name) (rows : NewRows) :
    (s.insert table rows : Attempt σ Error InsertReport).Ends t (fun _ next => v.Idle next)
      fun _ next => v.Rest db next :=
  tracked_whole laws.toTransacts known rest fun _ compiled =>
    Connection.insertRows_steady laws known (Insert.kind_of_compile only compiled)

theorem update_whole (known : v.known s.connection) (rest : v.Rest db t) {table : String}
    (only : ∀ t, s.snapshot.resolve table = .ok t → steady t.name) (set : RowValues)
    (filter : Filter) : (s.update table set filter : Attempt σ Error Nat).Ends t
      (fun _ next => v.Idle next) fun _ next => v.Rest db next :=
  tracked_whole laws.toTransacts known rest fun _ compiled =>
    (laws.update_steady (Update.kind_of_compile only compiled)).mapError

theorem delete_whole (known : v.known s.connection) (rest : v.Rest db t) {table : String}
    (only : ∀ t, s.snapshot.resolve table = .ok t → steady t.name) (filter : Filter) :
    (s.delete table filter : Attempt σ Error Nat).Ends t (fun _ next => v.Idle next)
      fun _ next => v.Rest db next :=
  tracked_whole laws.toTransacts known rest fun _ compiled =>
    (laws.delete_steady (Delete.kind_of_compile only compiled)).mapError

end Session

/-! ## Sessions of a handle -/

namespace Handle

variable {lent : List Nat} {h : Handle σ} {q : α → Database → Prop}

/-- Work in a session of its own, all of which is done in time. -/
theorem withSession_after (laws : Transacts v) {work : Session → Attempt σ Error α}
    (settled : Settled v lent db h)
    (each : ∀ c t, v.known c → v.Rest db t → (work ⟨c, h.catalog.current⟩).Ends t
      (fun w next => ∃ later, q w later ∧ v.Rest later next) fun _ next => v.Rest db next) :
    (withSession work).Ends h (fun w next => ∃ later, q w later ∧ After v lent h later next)
      fun _ next => After v lent h db next :=
  .after rfl (withConnection_after laws settled each)

omit [Machine σ] in
theorem Async.onStore_ends {a : Attempt (Timed σ) Error α} {g : Handle σ} {fates : List Fate}
    {value : α → Timed (Handle σ) → Prop} {error : Error → Timed (Handle σ) → Prop}
    (ends : a.Ends ⟨g.store, fates⟩
      (fun w u => value w ⟨{ g with store := u.state }, u.fates⟩)
      fun e u => error e ⟨{ g with store := u.state }, u.fates⟩) :
    (Async.onStore a).Ends ⟨g, fates⟩ value error := by
  unfold Async.onStore Timed.onPart
  exact .onPart ends

omit [Machine σ] in
/-- Work on the store of a handle changes nothing else of it. -/
theorem Async.onStore_holds {a : Attempt (Timed σ) Error α} {g : Handle σ} {fates : List Fate}
    {value : α → Timed σ → Prop} {error : Error → Timed σ → Prop}
    (ends : a.Ends ⟨g.store, fates⟩ value error) : (Async.onStore a).Ends ⟨g, fates⟩
      (fun w t => ∃ s, t.state = { g with store := s } ∧ value w ⟨s, t.fates⟩)
      fun e t => ∃ s, t.state = { g with store := s } ∧ error e ⟨s, t.fates⟩ :=
  onStore_ends (ends.mono (fun _ u holds => ⟨u.state, rfl, holds⟩) fun _ u holds =>
    ⟨u.state, rfl, holds⟩)

theorem withSession_whole (laws : Transacts v) {work : Session → Attempt σ Error α}
    (settled : Settled v lent db h)
    (each : ∀ c t, v.known c → v.Rest db t → (work ⟨c, h.catalog.current⟩).Ends t
      (fun _ next => v.Idle next) fun _ next => v.Rest db next) :
    (withSession work).Ends h (fun _ next => ∃ later, Returned v lent h later next)
      fun _ next => Returned v lent h db next := by
  refine (withSession_after (q := fun _ _ => True) laws settled fun c t known rest =>
    (each c t known rest).mono ?_ fun _ _ kept => kept).mono ?_ ?_
  · exact fun _ _ ⟨later, held⟩ => ⟨later, trivial, held⟩
  · exact fun _ _ ⟨later, _, after⟩ => ⟨later, after.returned laws.toLends settled⟩
  · exact fun _ _ after => after.returned laws.toLends settled

structure Opened (v : Aspect σ) (lent : List Nat) (h : Handle σ) (db : Database)
    (s : AsyncSession) (next : Handle σ) : Prop where
  fresh : s.connection ∉ lent
  snapshot : s.snapshot = h.catalog.current
  limit : s.limit = h.settings.operationTimeout
  closed : s.transactionOpen = false
  acquired : acquire.outcome h = (.ok s.connection, next)
  borrowed : After v (s.connection :: lent) h db next

theorem Async.openSession_after (laws : Transacts v) (settled : Settled v lent db h)
    (fates : List Fate) :
    (Async.openSession : Attempt (Timed (Handle σ)) Error AsyncSession).Ends ⟨h, fates⟩
      (fun s t => Opened v lent h db s t.state ∧ t.fates = fates)
      fun _ t => After v lent h db t.state := by
  unfold Async.openSession
  have borrows : (Timed.lift acquire : Attempt (Timed (Handle σ)) Error Nat).Ends ⟨h, fates⟩
      (fun c t => ((c ∉ lent ∧ After v (c :: lent) h db t.state) ∧
        acquire.outcome h = (.ok c, t.state)) ∧ t.fates = fates)
      fun _ t => After v lent h db t.state :=
    .onPart (((acquire_after laws settled).and (.itself _ h)).mono (fun _ _ kept => ⟨kept, rfl⟩)
      fun _ _ kept => kept.1)
  refine borrows.bind ?_ fun _ _ kept => kept
  rintro c t ⟨⟨⟨fresh, held⟩, acquired⟩, same⟩
  refine .after rfl (.after rfl (.pure ⟨⟨fresh, ?_, ?_, rfl, acquired, held⟩, same⟩))
  · exact congrArg Catalog.current held.catalog
  · exact congrArg Settings.operationTimeout held.settings

/-- A handle at rest that holds what some work on another one comes to if it is done in time. -/
def AsDone (v : Aspect σ) (lent : List Nat) (h : Handle σ) (a : Attempt (Handle σ) Error α) (w : α)
    (g : Handle σ) : Prop :=
  ∃ next later, a.outcome h = (.ok w, next) ∧
    Returned v lent h later next ∧ Returned v lent h later g

/-- Work in a session of its own, for which one may wait in vain: then it is done nevertheless, or
nothing is. -/
theorem Async.withSession_after (laws : Transacts v)
    {work : AsyncSession → Attempt (Timed σ) Error α} {same : Session → Attempt σ Error α}
    (awaits : ∀ s : AsyncSession, s.Awaits (work s) (same s.waiting))
    (settled : Settled v lent db h)
    (each : ∀ c t, v.known c → v.Rest db t → (same ⟨c, h.catalog.current⟩).Ends t
      (fun _ next => v.Idle next) fun _ next => v.Rest db next)
    (fates : List Fate) : (Async.withSession work).Ends ⟨h, fates⟩
      (fun w t => AsDone v lent h (Handle.withSession same) w t.state)
      fun e t => Returned v lent h db t.state ∨ e = .queryTimeout h.settings.operationTimeout ∧
        ∃ w, AsDone v lent h (Handle.withSession same) w t.state := by
  have returned {later : Database} {g : Handle σ} (after : After v lent h later g) :
      Returned v lent h later g := after.returned laws.toLends settled
  unfold Async.withSession
  refine (openSession_after laws settled fates).bind ?_ fun _ _ after => .inl (returned after)
  rintro s ⟨g, left⟩ ⟨⟨fresh, snapshot, limit, closed, acquired, held⟩, rfl⟩
  have known : v.known s.connection := settled.knows _ fresh
  have back {later : Database} {store : σ} (rest : v.Rest later store) :
      Returned v lent h later (Async.drop s { g with store }) := by
    unfold Async.drop
    rw [closed]
    exact returned (giveBack_after (held.withStore rest))
  have done {w : α} {store : σ}
      (worked : v.Idle store ∧ (same s.waiting).outcome g.store = (.ok w, store)) :
      AsDone v lent h (Handle.withSession same) w (Async.drop s { g with store }) := by
    obtain ⟨⟨later, rest⟩, ended⟩ := worked
    unfold AsyncSession.waiting at ended
    rw [snapshot] at ended
    exact ⟨_, later, withConnection_of_acquired acquired ended,
      returned (release_after laws (held.withStore rest) known), back rest⟩
  have ends := (awaits s).ends (t := ⟨g.store, left⟩)
    ((snapshot ▸ each s.connection g.store known held.store).and (.itself _ _))
  refine .observing (onStore_ends (ends.mono ?_ ?_))
  · exact fun w t ⟨worked, _⟩ => .after rfl (.of_eq_ok rfl (done worked))
  · rintro e t ⟨⟨rest, _⟩ | ⟨rfl, ⟨_, same⟩ | ⟨_, ⟨w, worked⟩ | ⟨_, rest, _⟩⟩ | ⟨_, same⟩⟩, _⟩
    · exact .after rfl (.of_eq_error rfl (.inl (back rest)))
    · exact .after rfl (.of_eq_error rfl (.inl (back (same ▸ held.store))))
    · exact .after rfl (.of_eq_error rfl (.inr ⟨limit ▸ rfl, w, done worked⟩))
    · exact .after rfl (.of_eq_error rfl (.inl (back rest)))
    · have rest := laws.interrupt_closed known held.store
      exact .after rfl (.of_eq_error rfl (.inl (back (same ▸ rest))))

/-- What a change of a handle makes of a database if it succeeds. If it fails it has made nothing of
it; of one that a suspended caller has waited for in vain nobody knows. -/
structure Makes (v : Aspect σ) (lent : List Nat) (h : Handle σ) (db : Database)
    (change : Attempt (Handle σ) Error α) (suspended : Attempt (Timed (Handle σ)) Error α)
    (made : α → Database → Prop) : Prop where
  inTime : change.Ends h (fun w next => ∃ later, made w later ∧ Returned v lent h later next)
    fun _ next => Returned v lent h db next
  inVain (fates : List Fate) : suspended.Ends ⟨h, fates⟩
    (fun w t => ∃ later, made w later ∧ Returned v lent h later t.state)
    fun e t => Returned v lent h db t.state ∨ e = .queryTimeout h.settings.operationTimeout ∧
      ∃ w later, made w later ∧ Returned v lent h later t.state

theorem Makes.of_ok {change : Attempt (Handle σ) Error α}
    {suspended : Attempt (Timed (Handle σ)) Error α} {w : α} {next : Handle σ}
    (makes : Makes v lent h db change suspended q) (ended : change.outcome h = (.ok w, next)) :
    ∃ later, q w later ∧ Returned v lent h later next :=
  makes.inTime.holds_ok ended

theorem Makes.mono {change : Attempt (Handle σ) Error α}
    {suspended : Attempt (Timed (Handle σ)) Error α} {other : α → Database → Prop}
    (makes : Makes v lent h db change suspended q) (weaker : ∀ w later, q w later → other w later) :
    Makes v lent h db change suspended other := by
  constructor
  · refine makes.inTime.mono ?_ fun _ _ kept => kept
    exact fun w _ ⟨later, made, back⟩ => ⟨later, weaker w later made, back⟩
  · refine fun fates => (makes.inVain fates).mono ?_ ?_
    · exact fun w _ ⟨later, made, back⟩ => ⟨later, weaker w later made, back⟩
    · exact fun _ _ => Or.imp_right fun ⟨timedOut, w, later, made, back⟩ =>
        ⟨timedOut, w, later, weaker w later made, back⟩

theorem withSession_makes (laws : Transacts v)
    {work : AsyncSession → Attempt (Timed σ) Error α} {same : Session → Attempt σ Error α}
    (awaits : ∀ s : AsyncSession, s.Awaits (work s) (same s.waiting))
    (settled : Settled v lent db h)
    (each : ∀ c t, v.known c → v.Rest db t → (same ⟨c, h.catalog.current⟩).Ends t
      (fun w next => ∃ later, q w later ∧ v.Rest later next) fun _ next => v.Rest db next) :
    Makes v lent h db (Handle.withSession same) (Async.withSession work) q := by
  have prompt := withSession_after laws settled each
  have made {w : α} {g : Handle σ} (done : AsDone v lent h (Handle.withSession same) w g) :
      ∃ later, q w later ∧ Returned v lent h later g := by
    obtain ⟨next, later, ended, back, returned⟩ := done
    obtain ⟨other, holds, after⟩ := prompt.holds_ok ended
    cases laws.unique back.store after.store
    exact ⟨_, holds, returned⟩
  constructor
  · refine prompt.mono ?_ fun _ _ after => after.returned laws.toLends settled
    exact fun _ _ ⟨later, holds, after⟩ => ⟨later, holds, after.returned laws.toLends settled⟩
  · intro fates
    refine (Async.withSession_after laws awaits settled (fun c t known rest =>
      (each c t known rest).mono (fun _ _ ⟨later, _, kept⟩ => ⟨later, kept⟩)
        fun _ _ kept => kept) fates).mono (fun _ _ done => made done) ?_
    exact fun e t => Or.imp_right fun ⟨timedOut, w, done⟩ => ⟨timedOut, w, made done⟩

/-! ## Whatever comes of a request -/

/-- A handle after some work on another one: some database is at rest in its store. -/
def Held (v : Aspect σ) (lent : List Nat) (h g : Handle σ) : Prop := ∃ later, After v lent h later g

section Held

variable (laws : Laws v steady plain) (knows : ∀ c, c ∉ lent → v.known c)

include laws knows

theorem withConnection_held {work : Nat → Attempt σ Error α}
    (each : ∀ c, v.known c → (work c).Keeps v.Idle) :
    (withConnection work).Keeps (Held v lent h) := by
  refine .of_ends fun g ⟨db, after⟩ => ?_
  unfold withConnection
  refine (acquire_after laws.toTransacts (after.settled knows)).bind ?_
    fun _ _ kept => ⟨db, after.trans kept⟩
  rintro c lending ⟨fresh, held⟩
  have known : v.known c := knows c fresh
  have back {t : σ} (idle : v.Idle t) :
      Held v lent h (release c { lending with store := t }) := by
    obtain ⟨later, rest⟩ := idle
    exact ⟨later, after.trans (release_after laws.toTransacts (held.withStore rest) known)⟩
  refine .observing (.onPart (((each c known).ends ⟨db, held.store⟩).mono ?_ ?_))
  · exact fun w t idle => .after rfl (.of_eq_ok rfl (back idle))
  · exact fun e t idle => .after rfl (.of_eq_error rfl (back idle))

theorem withSession_held {work : Session → Attempt σ Error α}
    (each : ∀ c, v.known c → (work ⟨c, h.catalog.current⟩).Keeps v.Idle) :
    (withSession work).Keeps (Held v lent h) := by
  refine .reading_bind fun g ⟨later, after⟩ => ?_
  rw [after.catalog]
  exact withConnection_held laws knows each g ⟨later, after⟩

theorem bulkUpdate_held {table : String}
    (only : ∀ t, h.catalog.current.resolve table = .ok t → steady t.name) (rows : List RowValues)
    (keys : List String) (asked : Option Nat) :
    (bulkUpdate table rows keys asked : Attempt (Handle σ) Error BulkReport).Keeps
      (Held v lent h) := by
  rw [bulkUpdate_eq_blocking]
  refine .bind (.reading _) fun size => .reading_bind fun g ⟨later, after⟩ => ?_
  rw [after.catalog]
  refine Tracker.tracked_keeps (fun request compiled => ?_) g ⟨later, after⟩
  cases request with
  | none => exact .pure _
  | some b =>
      refine BulkReport.overChunks_keeps (fun chunk _ => withConnection_held laws knows ?_) _
      exact fun c known => Session.updateChunk_idle (s := ⟨c, h.catalog.current⟩) laws known
        (BulkUpdate.kind_of_compile only compiled) chunk

/-- Whatever becomes of a request on steady tables, the connection that it used comes back without a
transaction. -/
theorem onHandle_held {request : Request} (only : request.ChangesOnly steady h.catalog.current) :
    (request.onHandle : Attempt (Handle σ) Error Reply).Keeps (Held v lent h) := by
  cases request with
  | select query =>
      refine .bind ?_ fun _ => .pure _
      rw [select_eq]
      refine .bind (.reading _) fun _ => .bind (.ofExcept _) fun plan =>
        withConnection_held laws knows fun c known => ?_
      exact (laws.select plan known).mapError.idle
  | insert table rows =>
      refine .bind ?_ fun _ => .pure _
      rw [insert_eq]
      exact withSession_held laws knows fun c known =>
        Session.insert_idle (s := ⟨c, _⟩) laws only known rows
  | update table set filter =>
      refine .bind ?_ fun _ => .pure _
      rw [update_eq]
      exact withSession_held laws knows fun c known =>
        Session.update_idle (s := ⟨c, _⟩) laws only known set filter
  | delete table filter =>
      refine .bind ?_ fun _ => .pure _
      rw [delete_eq]
      exact withSession_held laws knows fun c known =>
        Session.delete_idle (s := ⟨c, _⟩) laws only known filter
  | bulkUpdate table rows keys size =>
      exact .bind (bulkUpdate_held laws knows only rows keys size) fun _ => .pure _
  | dump table =>
      refine .bind ?_ fun _ => .pure _
      rw [dump_eq]
      exact withConnection_held laws knows fun c known => (laws.dump table known).mapError.idle
  | create new =>
      refine .bind ?_ fun _ => .pure _
      rw [create_eq]
      exact withConnection_held laws knows fun c known => (laws.create_idle new known).mapError
  | catalog => exact .bind (.reading _) fun _ => .pure _
  | runaway =>
      unfold Request.onHandle
      rw [spin_eq]
      exact .bind (.reading _) fun limit => withConnection_held laws knows fun c known =>
        (Session.spin_spares (s := ⟨c, h.catalog.current⟩) laws known limit).idle
  | fail e => exact .throw e

end Held

end Handle

end TableAccess
