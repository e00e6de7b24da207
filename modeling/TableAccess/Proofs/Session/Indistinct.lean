import TableAccess.Proofs.Session.Work
import TableAccess.Proofs.Store.AlikeStatements
import TableAccess.Proofs.Store.Laws

/-!
# Stores that look alike

A connection that has a store to itself cannot tell it from another one that looks alike, whatever
looking alike amounts to: everything that it does has the same outcome on both, and leaves stores
that look alike. The laws are about the single steps of a connection; brackets and requests follow.
-/

namespace TableAccess

open Attempt (Respects)

theorem Tracker.tracked_respects {τ α β : Type} {related : τ → τ → Prop} {table : String}
    {operation : Operation} {compiled : Except Error β} {run : β → Attempt τ Error α}
    (runs : ∀ request, (run request).Respects related) :
    (tracked table operation compiled run).Respects related := by
  intro s t holds
  cases compiled with
  | error e => exact ⟨rfl, holds⟩
  | ok request =>
      exact .congr (tracked_ok request run s) (tracked_ok request run t) (runs request s t holds)

/-! ## Laws -/

namespace Machine

variable {σ ε δ α β : Type} [Machine σ]

/-- Work that comes to the same on stores that look alike, and that leaves no transaction open where
none was. -/
structure Blind (c : Nat) (alike : σ → σ → Prop) (a : Attempt σ ε α) : Prop where
  respects : a.Respects alike
  closed {s : σ} : alike s s → isOpen s c = false → isOpen (a.outcome s).2 c = false

/-- What looking alike has to be for a connection that has its store to itself: it is never kept
waiting, and nothing that it does tells the stores apart. -/
structure Indistinct (c : Nat) (alike : σ → σ → Prop) : Prop where
  symm {s t : σ} : alike s t → alike t s
  trans {s t u : σ} : alike s t → alike t u → alike s u
  isOpen {s t : σ} : alike s t → isOpen t c = isOpen s c
  lastNumber {s t : σ} : alike s t → lastNumber t c = lastNumber s c
  answers {s : σ} : alike s s → answers s c = true
  configure {s : σ} : alike s s →
    ∃ t, (Machine.configure c : Attempt σ Fault Unit).outcome s = (.ok (), t) ∧ alike s t
  begin (mode : Mode) : (Machine.begin c mode : Attempt σ Fault Unit).Respects alike
  begin_failed {s : σ} (mode : Mode) : alike s s → Machine.isOpen s c = false →
    (Machine.begin c mode : Attempt σ Fault Unit).Ends s (fun _ _ => True)
      fun _ t => Machine.isOpen t c = false
  commit : (Machine.commit c : Attempt σ Fault Unit).Respects alike
  commit_closes {s : σ} : alike s s → (Machine.commit c : Attempt σ Fault Unit).Ends s
    (fun _ t => Machine.isOpen t c = false) fun _ _ => True
  rollback : (Machine.rollback c : Attempt σ Fault Unit).Respects alike
  rollback_closes {s : σ} : alike s s → (Machine.rollback c : Attempt σ Fault Unit).Ends s
    (fun _ t => Machine.isOpen t c = false) fun _ _ => False
  rollback_closed {s : σ} : Machine.isOpen s c = false →
    (Machine.rollback c : Attempt σ Fault Unit).outcome s = (.ok (), s)
  select (q : Select) : Blind c alike (Machine.select c q : Attempt σ Fault (List Row))
  dump (table : String) : Blind c alike (Machine.dump c table : Attempt σ Fault (List Row))
  create (new : NewTable) : Blind c alike (Machine.create c new : Attempt σ Fault Nat)
  discover (whole : String) :
    Blind c alike (Machine.discover c whole : Attempt σ (String × Fault) Snapshot)
  ping : Blind c alike (Machine.ping c : Attempt σ Fault Unit)
  takeInsert (i : Insert) : (Machine.takeInsert c i : Attempt σ Fault Unit).Respects alike
  insertRow (i : Insert) (row : List Value) :
    (Machine.insertRow c i row : Attempt σ Fault Unit).Respects alike
  update (u : Update) : (Machine.update c u : Attempt σ Fault Nat).Respects alike
  delete (d : Delete) : (Machine.delete c d : Attempt σ Fault Nat).Respects alike
  takeBulk (b : BulkUpdate) : (Machine.takeBulk c b : Attempt σ Fault Unit).Respects alike
  updateRow (b : BulkUpdate) (row : RowValues) :
    (Machine.updateRow c b row : Attempt σ Fault Nat).Respects alike

namespace Blind

variable {c : Nat} {alike : σ → σ → Prop} {a : Attempt σ ε α}

theorem mapError {rename : ε → δ} (blind : Blind c alike a) : Blind c alike (a.mapError rename) :=
  ⟨blind.respects.mapError, blind.closed⟩

theorem tracked {table : String} {operation : Operation} {compiled : Except Error β}
    {run : β → Attempt σ Error α} (runs : ∀ request, Blind c alike (run request)) :
    Blind c alike (Tracker.tracked table operation compiled run) := by
  refine ⟨Tracker.tracked_respects fun request => (runs request).respects, fun {s} alone shut => ?_⟩
  cases compiled with
  | error e => exact shut
  | ok request =>
      rw [Tracker.tracked_ok]
      exact (runs request).closed alone shut

end Blind

namespace Indistinct

variable {c : Nat} {alike : σ → σ → Prop} (laws : Indistinct c alike) {s t : σ}

include laws

theorem left (same : alike s t) : alike s s := laws.trans same (laws.symm same)

theorem right (same : alike s t) : alike t t := laws.trans (laws.symm same) same

theorem insertRows (i : Insert) (rows : List (List Value)) :
    (Machine.insertRows c i rows : Attempt σ Fault Nat).Respects alike := by
  induction rows with
  | nil => exact .pure 0
  | cons row rest ih => exact (laws.insertRow i row).bind fun _ => ih.bind fun _ => .pure _

theorem updateRows (b : BulkUpdate) (rows : List RowValues) :
    (Machine.updateRows c b rows : Attempt σ Fault Nat).Respects alike := by
  induction rows with
  | nil => exact .pure 0
  | cons row rest ih => exact (laws.updateRow b row).bind fun _ => ih.bind fun _ => .pure _

end Indistinct

end Machine

open Machine (Blind Indistinct)

variable {σ α : Type} [Machine σ] {c : Nat} {alike : σ → σ → Prop}

/-! ## Connections -/

namespace Connection

variable (laws : Indistinct c alike)

include laws

theorem begin_respects (mode : Mode) : (begin c mode : Attempt σ Error Unit).Respects alike :=
  (laws.begin mode).mapError

theorem rollback_respects : (rollback c : Attempt σ Error Unit).Respects alike :=
  laws.rollback.mapError

theorem enter_respects (mode : Mode) : (enter c mode : Attempt σ Error Bool).Respects alike := by
  refine (Respects.reading fun _ _ same => laws.isOpen same).bind fun opened => ?_
  cases opened with
  | true => exact .pure false
  | false => exact (begin_respects laws mode).bind fun _ => .pure true

theorem fail_respects (e : Error) : (fail c e : Attempt σ Error α).Respects alike :=
  (rollback_respects laws).observe.bind fun _ => .throw e

theorem conclude_respects (outcome : Except Error α) :
    (conclude c outcome : Attempt σ Error α).Respects alike := by
  cases outcome with
  | error e => exact fail_respects laws e
  | ok v =>
      refine laws.commit.mapError.observe.bind fun committed => ?_
      cases committed with
      | ok _ => exact .pure v
      | error e => exact fail_respects laws e

theorem leave_respects (began : Bool) (outcome : Except Error α) :
    (leave c began outcome : Attempt σ Error α).Respects alike := by
  cases began with
  | true => exact conclude_respects laws outcome
  | false => exact .ofExcept outcome

/-! ### Brackets -/

theorem fail_closes {s : σ} (alone : alike s s) (e : Error) :
    (fail c e : Attempt σ Error α).Ends s (fun _ _ => False)
      fun _ t => Machine.isOpen t c = false := by
  have undone : (rollback c : Attempt σ Error Unit).Ends s
      (fun _ t => Machine.isOpen t c = false) fun _ _ => False :=
    .mapError (laws.rollback_closes alone)
  exact .observing (undone.mono (fun _ _ closed => .throw closed) fun _ _ never => never.elim)

/-- However a bracket ends that began its transaction, it leaves none open. -/
theorem conclude_closes {s : σ} (alone : alike s s) (outcome : Except Error α) :
    Machine.isOpen ((conclude c outcome : Attempt σ Error α).outcome s).2 c = false := by
  refine Attempt.Ends.leaves (p := fun t => Machine.isOpen t c = false) ?_
  cases outcome with
  | error e => exact (fail_closes laws alone e).mono (fun _ _ => False.elim) fun _ _ kept => kept
  | ok v =>
      have reached : alike ((commit c : Attempt σ Error Unit).outcome s).2
          ((commit c : Attempt σ Error Unit).outcome s).2 :=
        laws.commit.mapError.kept alone
      have committed : (commit c : Attempt σ Error Unit).Ends s
          (fun _ t => Machine.isOpen t c = false) fun _ _ => True :=
        .mapError (laws.commit_closes alone)
      refine .observing ((committed.and (.itself _ s)).mono ?_ ?_)
      · exact fun _ _ ⟨closed, _⟩ => .pure closed
      · rintro e t ⟨_, ended⟩
        rw [ended] at reached
        exact (fail_closes laws reached e).mono (fun _ _ => False.elim) fun _ _ kept => kept

theorem inTransaction_blind (mode : Mode) {body : Attempt σ Error α}
    (respects : body.Respects alike) : Blind c alike (inTransaction c mode body) := by
  refine ⟨?_, fun {s} alone closed => ?_⟩
  · exact (enter_respects laws mode).bind fun began => respects.observe.bind fun outcome =>
      leave_respects laws began outcome
  · have begun : alike ((begin c mode : Attempt σ Error Unit).outcome s).2
        ((begin c mode : Attempt σ Error Unit).outcome s).2 :=
      (begin_respects laws mode).kept alone
    have refused : (begin c mode : Attempt σ Error Unit).Ends s (fun _ _ => True)
        fun _ t => Machine.isOpen t c = false :=
      .mapError (laws.begin_failed mode alone closed)
    unfold inTransaction
    rw [Attempt.outcome_bind, enter_closed closed, Attempt.outcome_bind]
    rcases refused.cases with ⟨_, t, ended, _⟩ | ⟨e, t, ended, still⟩
    · rw [ended] at begun ⊢
      exact conclude_closes laws (respects.kept begun) _
    · rw [ended]
      exact still

/-! ### Requests -/

theorem select_blind (q : Select) : Blind c alike (select c q : Attempt σ Error (List Row)) :=
  (laws.select q).mapError

theorem dump_blind (table : String) :
    Blind c alike (dump c table : Attempt σ Error (List Row)) :=
  (laws.dump table).mapError

theorem create_blind (new : NewTable) : Blind c alike (create c new : Attempt σ Error Nat) :=
  (laws.create new).mapError

theorem discover_blind : Blind c alike (discover c : Attempt σ Error Snapshot) :=
  (laws.discover _).mapError

theorem ping_blind : Blind c alike (ping c : Attempt σ Error Unit) := laws.ping.mapError

theorem insert_blind (i : Insert) : Blind c alike (insert c i : Attempt σ Error InsertReport) := by
  have inserts : (Machine.insert c i : Attempt σ Fault Nat).Respects alike :=
    (laws.takeInsert i).bind fun _ => laws.insertRows i i.rows
  refine inTransaction_blind laws .immediate (inserts.mapError.bind fun _ => ?_)
  exact (Respects.reading fun _ _ same => laws.lastNumber same).bind fun _ => .pure _

theorem update_blind (u : Update) : Blind c alike (update c u : Attempt σ Error Nat) :=
  inTransaction_blind laws .immediate (laws.update u).mapError

theorem delete_blind (d : Delete) : Blind c alike (delete c d : Attempt σ Error Nat) :=
  inTransaction_blind laws .immediate (laws.delete d).mapError

theorem updateChunk_blind (b : BulkUpdate) (rows : List RowValues) :
    Blind c alike (updateChunk c b rows : Attempt σ Error Nat) := by
  refine inTransaction_blind laws .immediate (Respects.mapError ?_)
  exact (laws.takeBulk b).bind fun _ => laws.updateRows b rows

end Connection

/-! ## Requests in a session -/

theorem BulkReport.overChunks_respects {τ : Type} {related : τ → τ → Prop}
    {run : List RowValues → Attempt τ Error Nat} (runs : ∀ chunk, (run chunk).Respects related)
    (report : BulkReport) (chunks : List (List RowValues)) :
    (overChunks run report chunks).Respects related := by
  induction chunks generalizing report with
  | nil => exact .pure report
  | cons chunk rest ih => exact (runs chunk).bind fun affected => ih (report.adding affected)

def Request.isPlain : Request → Bool
  | runaway => false
  | _ => true

theorem Request.inSession_respects (s : Session) (laws : Indistinct s.connection alike)
    (settings : Settings) {request : Request} (plain : request.isPlain = true) :
    (request.inSession s settings : Attempt σ Error Reply).Respects alike := by
  cases request with
  | select query =>
      refine ((Respects.ofExcept _).bind fun plan => ?_).bind fun _ => .pure _
      exact (Connection.select_blind laws plan).respects
  | insert table rows =>
      exact (Tracker.tracked_respects fun i =>
        (Connection.insert_blind laws i).respects).bind fun _ => .pure _
  | update table set filter =>
      exact (Tracker.tracked_respects fun u =>
        (Connection.update_blind laws u).respects).bind fun _ => .pure _
  | delete table filter =>
      exact (Tracker.tracked_respects fun d =>
        (Connection.delete_blind laws d).respects).bind fun _ => .pure _
  | bulkUpdate table rows keys size =>
      refine (Tracker.tracked_respects fun request => ?_).bind fun _ => .pure _
      cases request with
      | none => exact .pure _
      | some b =>
          exact BulkReport.overChunks_respects (fun chunk =>
            (Connection.updateChunk_blind laws b chunk).respects) _ _
  | dump table => exact (Connection.dump_blind laws table).respects.bind fun _ => .pure _
  | create new => exact (Connection.create_blind laws new).respects.bind fun _ => .pure _
  | catalog => exact .pure _
  | runaway => cases plain
  | fail e => exact .throw e

/-- Work of requests that end by themselves, whatever they are answered with. -/
def Work.IsPlain : Work α → Prop
  | finish _ => True
  | call request next => request.isPlain = true ∧ ∀ reply, (next reply).IsPlain

theorem Work.inSession_respects (s : Session) (laws : Indistinct s.connection alike)
    (settings : Settings) {work : Work α} (plain : work.IsPlain) :
    (work.inSession s settings : Attempt σ Error α).Respects alike := by
  induction work with
  | finish result => exact .ofExcept result
  | call request next ih =>
      exact (request.inSession_respects s laws settings plain.1).observe.bind fun reply =>
        ih reply (plain.2 reply)

/-! ## The store -/

namespace Store

variable {s : Store}

theorem Alone.sound (alone : Alone c s) (closed : s.isOpen c = false) : s.Sound [] := by
  refine ⟨?_, fun held found => ?_⟩
  · rw [alone.transactions_of_closed closed]
    exact nofun
  · have opened := (alone.held held found).2
    rw [closed] at opened
    cases opened

/-- What leaves a store without a transaction at rest leaves a connection that is alone without one.
-/
theorem closed_of_idle {ε α : Type} {a : Attempt Store ε α} (alone : Alone c s)
    (closed : s.isOpen c = false)
    (idle : ∀ outside : Store, outside.Sound [] →
      a.Keeps (aspect (fun _ _ => True) [] outside).Idle) :
    (a.outcome s).2.isOpen c = false := by
  have sound := alone.sound closed
  obtain ⟨_, rest⟩ := idle s sound s ⟨s.database, .refl s, trivial⟩
  exact (aspect_lends upheld_true sound).closed List.not_mem_nil rest

theorem begin_failed_alone (alone : Alone c s) (closed : s.isOpen c = false) (mode : Mode) :
    (begin c mode).Ends s (fun _ _ => True) fun _ t => t.isOpen c = false := by
  have sound := alone.sound closed
  have transacts := aspect_transacts upheld_true sound
  refine (transacts.begin mode List.not_mem_nil ⟨.refl s, trivial⟩).mono ?_ ?_
  · exact fun _ _ _ => trivial
  · exact fun _ _ rest => transacts.closed List.not_mem_nil rest

theorem commit_alone (alone : Alone c s) :
    (commit c).Ends s (fun _ t => t.isOpen c = false) fun _ _ => True := by
  have counted : Alone c s.counted := alone.noted (.counted c s)
  unfold commit
  refine .after (announce_outcome alone) (.after rfl ?_)
  dsimp only
  cases s.counted.isOpen c with
  | false => exact .throw trivial
  | true =>
      refine .after rfl ?_
      dsimp only
      split
      · exact .throw trivial
      · have released : (s.counted.release c).isOpen c = false := by
          rw [counted.release_eq]
          rfl
        exact .of_eq_ok rfl released

theorem rollback_alone (alone : Alone c s) :
    (rollback c).Ends s (fun _ t => t.isOpen c = false) fun _ _ => False := by
  unfold rollback
  refine .after rfl ?_
  dsimp only
  cases opened : s.isOpen c with
  | false => exact .pure opened
  | true =>
      have counted : Alone c s.counted := alone.noted (.counted c s)
      exact .after (announce_outcome alone) (.of_eq_ok rfl counted.isOpen_undo)

/-- The laws hold of the store. -/
theorem indistinct (c : Nat) : Indistinct c (Alike c) where
  symm := Alike.symm
  trans := Alike.trans
  isOpen := Alike.isOpen
  lastNumber same := congrArg (·.number) same.memory
  answers same := by
    change (!Store.schemaLocked _ c) = true
    rw [show Store.schemaLocked _ c = false from same.left.changedElsewhere _]
    rfl
  configure {s} same := by
    refine ⟨s.remember c Memory.expire, ?_, .noted same.left (.remember c c _ _) ?_ rfl⟩
    · change (Store.configure c).outcome s = _
      unfold Store.configure
      rw [Attempt.outcome_bind, requireSchema_unlocked (same.left.changedElsewhere _)]
      rfl
    · rw [memory_remember_self, Memory.expire_expire]
  begin := begin_respects
  begin_failed mode same closed := begin_failed_alone same.left closed mode
  commit := commit_respects
  commit_closes same := commit_alone same.left
  rollback := rollback_respects
  rollback_closes same := rollback_alone same.left
  rollback_closed := rollback_closed
  select q := ⟨query_respects _ _ _, fun same closed => closed_of_idle same.left closed
    fun _ sound => ((aspect_laws upheld_true sound).select q List.not_mem_nil).idle⟩
  dump table := ⟨query_respects _ _ _, fun same closed => closed_of_idle same.left closed
    fun _ sound => ((aspect_laws upheld_true sound).dump table List.not_mem_nil).idle⟩
  create new := ⟨create_respects new, fun same closed => closed_of_idle same.left closed
    fun _ sound => (aspect_laws upheld_true sound).create_idle new List.not_mem_nil⟩
  discover whole := ⟨discover_respects whole, fun same closed => closed_of_idle same.left closed
    fun _ sound => ((aspect_laws upheld_true sound).discover whole List.not_mem_nil).idle⟩
  ping := ⟨announce_respects, fun same closed => closed_of_idle same.left closed
    fun _ sound => ((aspect_laws upheld_true sound).ping List.not_mem_nil).idle⟩
  takeInsert := takeInsert_respects
  insertRow := insertRow_respects
  update := update_respects
  delete := delete_respects
  takeBulk := takeBulk_respects
  updateRow := updateRow_respects

end Store

end TableAccess
