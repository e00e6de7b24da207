import TableAccess.Proofs.Session.Work

/-!
# Waiting with a time limit

A suspended caller that waits for some work goes on with its outcome, or with an error that tells
nothing about the work: it may not have begun, it may be done later, or it is interrupted. A request
in the session of such a caller is the request of a waiting one for which it waits in this way.
-/

namespace TableAccess

open Attempt (Ends Keeps)

namespace Timed

variable {σ ε δ α β : Type}

/-- Work for which one waits until a time limit, unless it fails before one begins to wait. -/
def Awaits (limit : Nat) (interrupt : σ → σ) (a : Attempt (Timed σ) Error α)
    (work : Attempt σ Error α) : Prop :=
  ∀ t, ∃ rest ⊆ t.fates,
    a.outcome t = ((work.outcome t.state).1, ⟨(work.outcome t.state).2, rest⟩) ∨
    .unstarted ∈ t.fates ∧ a.outcome t = (.error (.queryTimeout limit), ⟨t.state, rest⟩) ∨
    .late ∈ t.fates ∧
      a.outcome t = (.error (.queryTimeout limit), ⟨(work.outcome t.state).2, rest⟩) ∨
    .interrupted ∈ t.fates ∧ a.outcome t = (.error (.queryTimeout limit), ⟨interrupt t.state, rest⟩)

namespace Awaits

variable {limit : Nat} {interrupt : σ → σ} {a : Attempt (Timed σ) Error α}
  {work : Attempt σ Error α}

theorem await (limit : Nat) (interrupt : σ → σ) (work : Attempt σ Error α) :
    Awaits limit interrupt (Timed.await limit interrupt work) work := by
  rintro ⟨s, _ | ⟨fate, rest⟩⟩
  · exact ⟨[], List.Subset.refl _, .inl rfl⟩
  · refine ⟨rest, List.subset_cons_self fate rest, ?_⟩
    cases fate with
    | inTime => exact .inl rfl
    | unstarted => exact .inr (.inl ⟨List.mem_cons_self, rfl⟩)
    | late => exact .inr (.inr (.inl ⟨List.mem_cons_self, rfl⟩))
    | interrupted => exact .inr (.inr (.inr ⟨List.mem_cons_self, rfl⟩))

/-- Work that is done however long it takes. -/
theorem lift (work : Attempt σ Error α) : Awaits limit interrupt (Timed.lift work) work :=
  fun t => ⟨t.fates, List.Subset.refl _, .inl rfl⟩

theorem ofExcept (result : Except Error α) :
    Awaits limit interrupt (.ofExcept result) (.ofExcept result) :=
  fun t => ⟨t.fates, List.Subset.refl _, .inl rfl⟩

/-- What is checked before anything is waited for. -/
theorem checked {result : Except Error β} {next : β → Attempt (Timed σ) Error α}
    {other : β → Attempt σ Error α} (rest : ∀ v, Awaits limit interrupt (next v) (other v)) :
    Awaits limit interrupt (Attempt.ofExcept result >>= next)
      (Attempt.ofExcept result >>= other) := by
  cases result with
  | ok v => exact rest v
  | error e => exact ofExcept (.error e)

theorem wrapped {wrap : α → β} (awaits : Awaits limit interrupt a work) :
    Awaits limit interrupt (a >>= fun v => Pure.pure (wrap v))
      (work >>= fun v => Pure.pure (wrap v)) := by
  intro t
  obtain ⟨rest, subset, cases⟩ := awaits t
  refine ⟨rest, subset, ?_⟩
  have left : (work >>= fun v => Pure.pure (wrap v)).outcome t.state =
      ((work.outcome t.state).1.map wrap, (work.outcome t.state).2) := by
    rw [Attempt.outcome_bind]
    cases work.outcome t.state with
    | mk result s => cases result <;> rfl
  rw [left, Attempt.outcome_bind]
  rcases cases with same | ⟨fated, same⟩ | ⟨fated, same⟩ | ⟨fated, same⟩
  · rw [same]
    refine .inl ?_
    cases (work.outcome t.state).1 <;> rfl
  · rw [same]
    exact .inr (.inl ⟨fated, rfl⟩)
  · rw [same]
    exact .inr (.inr (.inl ⟨fated, rfl⟩))
  · rw [same]
    exact .inr (.inr (.inr ⟨fated, rfl⟩))

/-- A tracker does not change how long one waits. -/
theorem tracked {table : String} {operation : Operation} {compiled : Except Error β}
    {run : β → Attempt (Timed σ) Error α} {other : β → Attempt σ Error α}
    (awaits : ∀ request, Awaits limit interrupt (run request) (other request)) :
    Awaits limit interrupt (Tracker.tracked table operation compiled run)
      (Tracker.tracked table operation compiled other) := by
  intro t
  cases compiled with
  | error e => exact ⟨t.fates, List.Subset.refl _, .inl rfl⟩
  | ok request =>
      rw [Tracker.tracked_ok, Tracker.tracked_ok]
      exact awaits request t

/-- Where all is done in time nothing is waited for in vain. -/
theorem outcome_inTime (awaits : Awaits limit interrupt a work) (s : σ) :
    a.outcome ⟨s, []⟩ = ((work.outcome s).1, ⟨(work.outcome s).2, []⟩) := by
  obtain ⟨rest, subset, same | ⟨never, _⟩ | ⟨never, _⟩ | ⟨never, _⟩⟩ := awaits ⟨s, []⟩
  · rwa [List.subset_nil.mp subset] at same
  · cases never
  · cases never
  · cases never

/-- What is known of the work is known of its outcome. All else is told by the error. -/
theorem ends {t : Timed σ} {value : α → σ → Prop} {error : Error → σ → Prop}
    (awaits : Awaits limit interrupt a work) (ends : work.Ends t.state value error) : a.Ends t
      (fun v next => value v next.state ∧ next.fates ⊆ t.fates)
      fun e next => (error e next.state ∨ e = .queryTimeout limit ∧
          (.unstarted ∈ t.fates ∧ next.state = t.state ∨
            .late ∈ t.fates ∧ ((∃ v, value v next.state) ∨ ∃ e, error e next.state) ∨
            .interrupted ∈ t.fates ∧ next.state = interrupt t.state)) ∧
        next.fates ⊆ t.fates := by
  have reached : (∃ v, value v (work.outcome t.state).2) ∨ ∃ e, error e (work.outcome t.state).2 := by
    rcases ends.cases with ⟨v, s, ended, holds⟩ | ⟨e, s, ended, holds⟩
    · rw [ended]
      exact .inl ⟨v, holds⟩
    · rw [ended]
      exact .inr ⟨e, holds⟩
  obtain ⟨rest, subset, same | ⟨fated, same⟩ | ⟨fated, same⟩ | ⟨fated, same⟩⟩ := awaits t
  · rcases ends.cases with ⟨v, s, ended, holds⟩ | ⟨e, s, ended, holds⟩
    · rw [ended] at same
      exact .of_eq_ok same ⟨holds, subset⟩
    · rw [ended] at same
      exact .of_eq_error same ⟨.inl holds, subset⟩
  · exact .of_eq_error same ⟨.inr ⟨rfl, .inl ⟨fated, rfl⟩⟩, subset⟩
  · exact .of_eq_error same ⟨.inr ⟨rfl, .inr (.inl ⟨fated, reached⟩)⟩, subset⟩
  · exact .of_eq_error same ⟨.inr ⟨rfl, .inr (.inr ⟨fated, rfl⟩)⟩, subset⟩

/-- What is done in time ends as the work does. -/
theorem ends_inTime {s : σ} {value : α → σ → Prop} {error : Error → σ → Prop}
    (awaits : Awaits limit interrupt a work) (ends : work.Ends s value error) :
    a.Ends ⟨s, []⟩ (fun v t => value v t.state ∧ t.fates = []) fun e t =>
      error e t.state ∧ t.fates = [] := by
  refine (awaits.ends (t := ⟨s, []⟩) ends).mono ?_ ?_
  · exact fun _ _ ⟨holds, fewer⟩ => ⟨holds, List.subset_nil.mp fewer⟩
  · rintro e t ⟨holds | ⟨_, ⟨never, _⟩ | ⟨never, _⟩ | ⟨never, _⟩⟩, fewer⟩
    · exact ⟨holds, List.subset_nil.mp fewer⟩
    · cases never
    · cases never
    · cases never

/-- What the work keeps is kept unless the work is interrupted. -/
theorem keeps_uninterrupted {p : σ → Prop} {fates : List Fate}
    (awaits : Awaits limit interrupt a work) (keeps : work.Keeps p) (calm : .interrupted ∉ fates) :
    a.Keeps fun t => p t.state ∧ t.fates ⊆ fates := by
  rintro t ⟨holds, fewer⟩
  obtain ⟨rest, subset, cases⟩ := awaits t
  have still : rest ⊆ fates := List.Subset.trans subset fewer
  rcases cases with same | ⟨_, same⟩ | ⟨_, same⟩ | ⟨fated, _⟩
  · rw [same]
    exact ⟨keeps t.state holds, still⟩
  · rw [same]
    exact ⟨holds, still⟩
  · rw [same]
    exact ⟨keeps t.state holds, still⟩
  · exact (calm (fewer fated)).elim

/-- What the work keeps, and an interruption too, is kept however long it takes. -/
theorem keeps {p : σ → Prop} (awaits : Awaits limit interrupt a work) (keeps : work.Keeps p)
    (stops : ∀ s, p s → p (interrupt s)) : a.Keeps fun t => p t.state := by
  intro t holds
  obtain ⟨rest, _, same | ⟨_, same⟩ | ⟨_, same⟩ | ⟨_, same⟩⟩ := awaits t
  · rw [same]
    exact keeps t.state holds
  · rw [same]
    exact holds
  · rw [same]
    exact keeps t.state holds
  · rw [same]
    exact stops t.state holds

end Awaits

end Timed

open Timed (Awaits)

/-! ## Sessions -/

/-- Chunks that are folded one after the other. -/
theorem BulkReport.foldlM_eq_overChunks {σ : Type} (run : List RowValues → Attempt σ Error Nat)
    (report : BulkReport) (chunks : List (List RowValues)) :
    chunks.foldlM (fun (report : BulkReport) chunk => do
      let affected ← run chunk
      pure ⟨report.chunks + 1, report.affected + affected⟩) report =
      overChunks run report chunks := by
  induction chunks generalizing report with
  | nil => rfl
  | cons chunk rest ih =>
      rw [List.foldlM_cons, overChunks, bind_assoc]
      refine congrArg (run chunk >>= ·) (funext fun affected => ?_)
      rw [pure_bind]
      exact ih _

namespace AsyncSession

variable {σ α : Type} [Machine σ] (s : AsyncSession)

def waiting : Session := ⟨s.connection, s.snapshot⟩

abbrev Awaits (a : Attempt (Timed σ) Error α) (work : Attempt σ Error α) : Prop :=
  Timed.Awaits s.limit (Machine.interrupt s.connection) a work

theorem run_awaits (work : Attempt σ Error α) : s.Awaits (s.run work) work := .await _ _ work

theorem insert_awaits (table : String) (rows : NewRows) :
    s.Awaits (s.insert table rows : Attempt (Timed σ) Error InsertReport)
      (s.waiting.insert table rows) :=
  .tracked fun i => s.run_awaits (Connection.insert s.connection i)

theorem update_awaits (table : String) (set : RowValues) (filter : Filter) :
    s.Awaits (s.update table set filter : Attempt (Timed σ) Error Nat)
      (s.waiting.update table set filter) :=
  .tracked fun u => s.run_awaits (Connection.update s.connection u)

theorem delete_awaits (table : String) (filter : Filter) :
    s.Awaits (s.delete table filter : Attempt (Timed σ) Error Nat) (s.waiting.delete table filter) :=
  .tracked fun d => s.run_awaits (Connection.delete s.connection d)

theorem bulkUpdate_awaits (table : String) (rows : List RowValues) (keys : List String)
    (size : Nat) : s.Awaits (s.bulkUpdate table rows keys size : Attempt (Timed σ) Error BulkReport)
      (s.waiting.bulkUpdate table rows keys size) := by
  have folded {work other : Attempt σ Error BulkReport} (same : work = other) :
      s.Awaits (s.runToCompletion work) other := same ▸ .lift work
  refine .tracked fun request => ?_
  cases request with
  | none => exact .lift _
  | some b => exact folded (BulkReport.foldlM_eq_overChunks _ _ _)

/-- A request inside a session of a suspended caller is that of a waiting one, for which it waits
until the time limit. -/
theorem inSession_awaits (settings : Settings) (limited : s.limit = settings.operationTimeout)
    (request : Request) :
    s.Awaits (request.inAsyncSession s settings : Attempt (Timed σ) Error Reply)
      (request.inSession s.waiting settings) := by
  cases request with
  | select query => exact .wrapped (.checked fun plan => s.run_awaits _)
  | insert table rows => exact .wrapped (s.insert_awaits table rows)
  | update table set filter => exact .wrapped (s.update_awaits table set filter)
  | delete table filter => exact .wrapped (s.delete_awaits table filter)
  | bulkUpdate table rows keys size => exact .wrapped (s.bulkUpdate_awaits table rows keys _)
  | dump table => exact .wrapped (s.run_awaits _)
  | create new => exact .wrapped (s.run_awaits _)
  | catalog => exact .ofExcept (.ok _)
  | runaway =>
      unfold Request.inAsyncSession Request.inSession spin
      rw [limited]
      exact .lift _
  | fail e => exact .ofExcept (.error e)

end AsyncSession

end TableAccess
