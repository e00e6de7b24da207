import TableAccess.Proofs.Session.Waiting

/-!
# Transactions of suspended callers

Inside the transaction of a suspended caller a request for which it has waited in vain has had its
effect or none, unless it was interrupted: then the transaction is gone, and cannot be committed any
more. Whatever becomes of the steps that end a transaction, the session knows enough to have it
undone when it is dropped.
-/

namespace TableAccess

open Attempt (Ends Keeps)
open Machine (Aspect Laws Transacts)

variable {σ α : Type} [Machine σ] {v : Aspect σ} {steady plain : String → Prop} {db : Database}
  {x : Content} {s : AsyncSession} {t : Timed σ} {fates : List Fate}

/-! ## Requests inside a transaction -/

namespace AsyncSession

variable (laws : Laws v steady plain) (settings : Settings)
  (limited : s.limit = settings.operationTimeout)

include laws limited

theorem inSession_inside (known : v.known s.connection) {request : Request}
    (only : request.ChangesOnly steady s.snapshot) (calm : .interrupted ∉ fates) :
    (request.inAsyncSession s settings : Attempt (Timed σ) Error Reply).Keeps fun t =>
      v.Inside s.connection db t.state ∧ t.fates ⊆ fates :=
  (s.inSession_awaits settings limited request).keeps_uninterrupted
    (Session.inSession_inside (s := s.waiting) laws settings known only) calm

/-- Without a transaction there is none after a request either. -/
theorem inSession_idle (known : v.known s.connection) {request : Request}
    (only : request.ChangesOnly steady s.snapshot) :
    (request.inAsyncSession s settings : Attempt (Timed σ) Error Reply).Keeps fun t =>
      v.Idle t.state :=
  (s.inSession_awaits settings limited request).keeps
    (Session.inSession_idle (s := s.waiting) laws settings known only)
    fun _ ⟨db, rest⟩ => ⟨db, laws.interrupt_closed known rest⟩

/-- A request inside a transaction has its effect, which may be unheard of, or ends it. -/
theorem inSession_within (known : v.known s.connection) {request : Request}
    (only : request.ChangesOnly plain s.snapshot) (within : v.Within s.connection db x t.state) :
    (request.inAsyncSession s settings : Attempt (Timed σ) Error Reply).Ends t
      (fun reply next => ∃ y, request.EffectInVain s.snapshot settings (.ok reply) x y ∧
        v.Within s.connection db y next.state)
      fun e next => (∃ y, request.EffectInVain s.snapshot settings (.error e) x y ∧
        v.Within s.connection db y next.state) ∨ v.Idle next.state := by
  refine ((s.inSession_awaits settings limited request).ends
    (Session.inSession_within (s := s.waiting) laws settings known within only)).mono ?_ ?_
  · rintro reply next ⟨⟨y, effect, held⟩, _⟩
    exact ⟨y, .inl effect, held⟩
  · rintro e next ⟨⟨y, effect, held⟩ | ⟨rfl, ⟨_, same⟩ | ⟨_, done⟩ | ⟨_, stopped⟩⟩, _⟩
    · exact .inl ⟨y, .inl effect, held⟩
    · exact .inl ⟨x, .inr ⟨limited ▸ rfl, .inl rfl⟩, same ▸ within⟩
    · obtain ⟨unheard, y, effect, held⟩ : ∃ unheard y,
          request.Effect s.snapshot settings unheard x y ∧
            v.Within s.connection db y next.state := by
        rcases done with ⟨reply, done⟩ | ⟨e, done⟩
        · exact ⟨.ok reply, done⟩
        · exact ⟨.error e, done⟩
      exact .inl ⟨y, .inr ⟨limited ▸ rfl, .inr ⟨unheard, effect⟩⟩, held⟩
    · exact .inr ⟨db, stopped ▸ laws.interrupt within⟩

end AsyncSession

/-! ## Work inside a transaction -/

namespace Work

variable (laws : Laws v steady plain) (settings : Settings)
  (limited : s.limit = settings.operationTimeout)

include laws limited

theorem inAsyncSession_inside (known : v.known s.connection) {work : Work α}
    (only : work.ChangesOnly steady s.snapshot) (calm : .interrupted ∉ fates) :
    (work.inAsyncSession s settings : Attempt (Timed σ) Error α).Keeps fun t =>
      v.Inside s.connection db t.state ∧ t.fates ⊆ fates := by
  induction work with
  | finish result => exact .ofExcept result
  | call request next ih =>
      exact .bind (AsyncSession.inSession_inside laws settings limited known only.1 calm).observe
        fun reply => ih reply (only.2 reply)

theorem inAsyncSession_idle (known : v.known s.connection) {work : Work α}
    (only : work.ChangesOnly steady s.snapshot) :
    (work.inAsyncSession s settings : Attempt (Timed σ) Error α).Keeps fun t =>
      v.Idle t.state := by
  induction work with
  | finish result => exact .ofExcept result
  | call request next ih =>
      exact .bind (AsyncSession.inSession_idle laws settings limited known only.1).observe
        fun reply => ih reply (only.2 reply)

/-- The course of some work, unless one of its requests is interrupted. -/
def CourseInVain (current : Snapshot) (settings : Settings) (work : Work α) (x : Content)
    (result : Except Error α) (y : Content) : Prop :=
  work.Course (fun request reply x y => request.EffectInVain current settings reply x y) x result y

theorem inAsyncSession_within (known : v.known s.connection) {work : Work α}
    (only : work.ChangesOnly plain s.snapshot) (within : v.Within s.connection db x t.state) :
    (work.inAsyncSession s settings : Attempt (Timed σ) Error α).Ends t
      (fun w next => (∃ y, work.CourseInVain s.snapshot settings x (.ok w) y ∧
        v.Within s.connection db y next.state) ∨ v.Idle next.state)
      fun e next => (∃ y, work.CourseInVain s.snapshot settings x (.error e) y ∧
        v.Within s.connection db y next.state) ∨ v.Idle next.state := by
  induction work generalizing x t with
  | finish result =>
      refine (Ends.ofExcept result).mono ?_ ?_
      · rintro w _ ⟨rfl, rfl⟩
        exact .inl ⟨x, .finish _ x, within⟩
      · rintro e _ ⟨rfl, rfl⟩
        exact .inl ⟨x, .finish _ x, within⟩
  | call request next ih =>
      have lost (reply : Except Error Reply) {u : Timed σ} (idle : v.Idle u.state) :
          ((next reply).inAsyncSession s settings).Ends u (fun _ last => v.Idle last.state)
            fun _ last => v.Idle last.state :=
        (inAsyncSession_idle laws settings limited known
          ((only.2 reply).mono fun _ => laws.steady_of_plain)).ends idle
      have onward (reply : Except Error Reply) {y : Content} {u : Timed σ}
          (effect : request.EffectInVain s.snapshot settings reply x y)
          (held : v.Within s.connection db y u.state) :
          ((next reply).inAsyncSession s settings).Ends u
            (fun w last => (∃ z, (call request next).CourseInVain s.snapshot settings x (.ok w) z ∧
              v.Within s.connection db z last.state) ∨ v.Idle last.state)
            fun e last => (∃ z, (call request next).CourseInVain s.snapshot settings x (.error e) z ∧
              v.Within s.connection db z last.state) ∨ v.Idle last.state := by
        refine (ih reply (only.2 reply) held).mono ?_ ?_
        · exact fun _ _ => Or.imp_left fun ⟨z, course, kept⟩ => ⟨z, .call effect course, kept⟩
        · exact fun _ _ => Or.imp_left fun ⟨z, course, kept⟩ => ⟨z, .call effect course, kept⟩
      refine .observing ((AsyncSession.inSession_within laws settings limited known only.1
        within).mono ?_ ?_)
      · exact fun reply u ⟨y, effect, held⟩ => onward _ effect held
      · rintro e u (⟨y, effect, held⟩ | idle)
        · exact onward _ effect held
        · exact (lost _ idle).mono (fun _ _ => .inr) fun _ _ => .inr

end Work

/-! ## The end of a transaction -/

namespace AsyncSession

variable (laws : Transacts v)

/-- A state that holds a database once the session is dropped. -/
def Leaves (v : Aspect σ) (db : Database) (s : AsyncSession) (t : σ) : Prop :=
  v.Rest db t ∨ s.transactionOpen = true ∧ v.Inside s.connection db t

include laws

/-- If the transaction could not be undone in time it is undone when the session is dropped. -/
theorem rollbackQuietly_leaves (known : v.known s.connection)
    (leaves : s.Leaves v db t.state) :
    (s.rollbackQuietly : Attempt (Timed σ) Error AsyncSession).Ends t
      (fun left next => left.connection = s.connection ∧ left.Leaves v db next.state)
      fun _ _ => False := by
  have undone : (Connection.rollback s.connection : Attempt σ Error Unit).Ends t.state
      (fun _ next => v.Rest db next) fun _ _ => False := by
    rcases leaves with rest | ⟨_, x, within⟩
    · exact .of_eq_ok (Connection.rollback_closed laws known rest) rest
    · exact Connection.rollback_rest laws within
  have stopped : v.Rest db (Machine.interrupt s.connection t.state) := by
    rcases leaves with rest | ⟨_, x, within⟩
    · exact laws.interrupt_closed known rest
    · exact laws.interrupt within
  unfold rollbackQuietly
  refine .observing (((s.run_awaits _).ends undone).mono ?_ ?_)
  · exact fun _ _ ⟨rest, _⟩ => .pure ⟨rfl, .inl rest⟩
  · rintro e next ⟨never | ⟨_, ⟨_, same⟩ | ⟨_, done⟩ | ⟨_, same⟩⟩, _⟩
    · exact never.elim
    · exact .pure ⟨rfl, same ▸ leaves⟩
    · exact .pure ⟨rfl, .inl (done.elim (fun ⟨_, rest⟩ => rest) fun ⟨_, never⟩ => never.elim)⟩
    · exact .pure ⟨rfl, .inl (same ▸ stopped)⟩

omit laws in
/-- A step that begins or ends a transaction, in time, in vain or not at all. -/
theorem noted_ends (opened : Bool) {step : Attempt σ Error Unit} {value : Unit → σ → Prop}
    {error : Error → σ → Prop} (ends : step.Ends t.state value error) :
    (s.run step >>= fun _ => pure { s with transactionOpen := opened } :
        Attempt (Timed σ) Error AsyncSession).Ends t
      (fun noted next => noted = { s with transactionOpen := opened } ∧ value () next.state ∧
        next.fates ⊆ t.fates)
      fun e next => error e next.state ∨ e = .queryTimeout s.limit ∧
        (.unstarted ∈ t.fates ∧ next.state = t.state ∨
          .late ∈ t.fates ∧ (value () next.state ∨ ∃ e, error e next.state) ∨
          .interrupted ∈ t.fates ∧ next.state = Machine.interrupt s.connection t.state) := by
  refine ((s.run_awaits _).ends ends).bind ?_ ?_
  · exact fun _ _ ⟨holds, fewer⟩ => .pure ⟨rfl, holds, fewer⟩
  · rintro e next ⟨failed | ⟨rfl, same | ⟨fated, ⟨_, done⟩ | failed⟩ | stopped⟩, _⟩
    · exact .inl failed
    · exact .inr ⟨rfl, .inl same⟩
    · exact .inr ⟨rfl, .inr (.inl ⟨fated, .inl done⟩)⟩
    · exact .inr ⟨rfl, .inr (.inl ⟨fated, .inr failed⟩)⟩
    · exact .inr ⟨rfl, .inr (.inr stopped)⟩

/-- How a transaction ends. What was made of the content is held exactly if it was committed, heard
of or not. -/
theorem leave_ends (known : v.known s.connection) (opened : s.transactionOpen = true)
    (within : v.Within s.connection db x t.state) (result : Except Error α) :
    (s.leave result : Attempt (Timed σ) Error (Except Error α × AsyncSession)).Ends t
      (fun ended next => ended.2.connection = s.connection ∧
        match ended.1 with
        | .ok w => result = .ok w ∧ ended.2.Leaves v x.database next.state ∧
            ((Connection.commit s.connection).outcome t.state).1 = .ok ()
        | .error e =>
            ended.2.Leaves v db next.state ∧ (result = .error e ∨ (∃ w, result = .ok w) ∧
              (e = .queryTimeout s.limit ∧ t.fates ≠ [] ∨
                ((Connection.commit s.connection).outcome t.state).1 = .error e)) ∨
            ended.2.Leaves v x.database next.state ∧ (∃ w, result = .ok w) ∧
              e = .queryTimeout s.limit ∧ .late ∈ t.fates)
      fun _ _ => False := by
  have undoing (e : Error) {later : Database} {u : Timed σ} (leaves : s.Leaves v later u.state)
      {ended : Except Error α × AsyncSession → Timed σ → Prop}
      (each : ∀ left next, left.connection = s.connection → left.Leaves v later next.state →
        ended (.error e, left) next) :
      (s.rollbackQuietly >>= fun left => pure (.error e, left) :
        Attempt (Timed σ) Error (Except Error α × AsyncSession)).Ends u ended fun _ _ => False := by
    refine (rollbackQuietly_leaves laws known leaves).bind ?_ fun _ _ never => never
    exact fun left next ⟨same, held⟩ => .pure (each left next same held)
  have leaves {u : Timed σ} (within : v.Within s.connection db x u.state) :
      s.Leaves v db u.state := .inr ⟨opened, x, within⟩
  cases result with
  | error e => exact undoing e (leaves within) fun _ _ same held => ⟨same, .inl ⟨held, .inl rfl⟩⟩
  | ok w =>
      have committed := (Connection.commit_rest laws within).and (.itself _ _)
      refine .observing ((noted_ends false committed).mono ?_ ?_)
      · rintro _ next ⟨rfl, ⟨⟨_, rest⟩, ended⟩, _⟩
        exact .pure ⟨rfl, rfl, .inl rest, congrArg Prod.fst ended⟩
      · rintro e next (⟨held, failed⟩ | ⟨rfl, ⟨fated, same⟩ |
          ⟨late, ⟨⟨_, rest⟩, _⟩ | ⟨_, held, _⟩⟩ | ⟨fated, same⟩⟩)
        · exact undoing e (leaves held) fun _ _ same kept =>
            ⟨same, .inl ⟨kept, .inr ⟨⟨w, rfl⟩, .inr (congrArg Prod.fst failed)⟩⟩⟩
        · exact undoing _ (leaves (same ▸ within)) fun _ _ same kept =>
            ⟨same, .inl ⟨kept, .inr ⟨⟨w, rfl⟩, .inl ⟨rfl, List.ne_nil_of_mem fated⟩⟩⟩⟩
        · exact undoing _ (.inl rest) fun _ _ same kept => ⟨same, .inr ⟨kept, ⟨w, rfl⟩, rfl, late⟩⟩
        · exact undoing _ (leaves held) fun _ _ same kept =>
            ⟨same, .inl ⟨kept, .inr ⟨⟨w, rfl⟩, .inl ⟨rfl, List.ne_nil_of_mem late⟩⟩⟩⟩
        · exact undoing _ (.inl (same ▸ laws.interrupt within)) fun _ _ same kept =>
            ⟨same, .inl ⟨kept, .inr ⟨⟨w, rfl⟩, .inl ⟨rfl, List.ne_nil_of_mem fated⟩⟩⟩⟩

/-- What was lost while the transaction was open is not committed any more. -/
theorem leave_idle (known : v.known s.connection) (idle : v.Idle t.state)
    (result : Except Error α) :
    (s.leave result : Attempt (Timed σ) Error (Except Error α × AsyncSession)).Ends t
      (fun ended _ => ∃ e, ended.1 = .error e) fun _ _ => False := by
  have undoing (e : Error) (u : Timed σ) : (s.rollbackQuietly >>= fun left => pure (.error e, left) :
      Attempt (Timed σ) Error (Except Error α × AsyncSession)).Ends u
        (fun ended _ => ∃ e, ended.1 = .error e) fun _ _ => False := by
    have quiet : (s.rollbackQuietly : Attempt (Timed σ) Error AsyncSession).Ends u
        (fun _ _ => True) fun _ _ => False :=
      .observing ((Ends.somehow _ u).mono (fun _ _ _ => .pure trivial) fun _ _ _ => .pure trivial)
    exact quiet.bind (fun _ _ _ => .pure ⟨e, rfl⟩) fun _ _ never => never
  cases result with
  | error e => exact undoing e t
  | ok w =>
      obtain ⟨db, rest⟩ := idle
      refine .observing ((noted_ends false (Connection.commit_closed laws known rest)).mono ?_ ?_)
      · exact fun _ _ ⟨_, never, _⟩ => never.elim
      · exact fun e next _ => undoing e next

end AsyncSession

end TableAccess
