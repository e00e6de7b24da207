import TableAccess.Proofs.Machine.Rows
import TableAccess.Proofs.Mutation.Compilation
import TableAccess.Proofs.Mutation.Pieces
import TableAccess.Proofs.Session.Joining
import TableAccess.Session.Request

/-!
# Work in a session

What a caller does in a session is a tree: a request, and after each reply to it what comes next.
Inside an open transaction every request joins it. On steady tables it leaves the transaction open;
on plain tables the work as a whole takes the content through the effects of its requests, one after
the other. A change of several rows that fails has an effect too: that of the rows before the one at
which it stopped.
-/

namespace TableAccess

open Attempt (Ends Keeps)
open Machine (Aspect Laws Transacts)

/-! ## Tables that are changed -/

/-- The tables that a request changes, as a snapshot names them, are of some kind. -/
def Request.ChangesOnly (kind : String → Prop) (current : Snapshot) : Request → Prop
  | insert table _ | update table _ _ | delete table _ | bulkUpdate table _ _ _ =>
      ∀ t, current.resolve table = .ok t → kind t.name
  | _ => True

/-- All requests of some work change only tables of some kind, whatever they are answered with. -/
def Work.ChangesOnly {α : Type} (kind : String → Prop) (current : Snapshot) : Work α → Prop
  | finish _ => True
  | call request next =>
      request.ChangesOnly kind current ∧ ∀ reply, (next reply).ChangesOnly kind current

theorem Request.ChangesOnly.of_forall {kind : String → Prop} (all : ∀ table, kind table)
    (current : Snapshot) (request : Request) : request.ChangesOnly kind current := by
  cases request with
  | insert table rows => exact fun t _ => all t.name
  | update table set filter => exact fun t _ => all t.name
  | delete table filter => exact fun t _ => all t.name
  | bulkUpdate table rows keys size => exact fun t _ => all t.name
  | _ => trivial

theorem Request.ChangesOnly.mono {kind other : String → Prop} {current : Snapshot}
    {request : Request} (only : request.ChangesOnly kind current)
    (weaker : ∀ table, kind table → other table) : request.ChangesOnly other current := by
  cases request with
  | insert table rows => exact fun t found => weaker _ (only t found)
  | update table set filter => exact fun t found => weaker _ (only t found)
  | delete table filter => exact fun t found => weaker _ (only t found)
  | bulkUpdate table rows keys size => exact fun t found => weaker _ (only t found)
  | _ => trivial

theorem Work.ChangesOnly.mono {α : Type} {kind other : String → Prop} {current : Snapshot}
    {work : Work α} (only : work.ChangesOnly kind current)
    (weaker : ∀ table, kind table → other table) : work.ChangesOnly other current := by
  induction work with
  | finish result => trivial
  | call request next ih => exact ⟨only.1.mono weaker, fun reply => ih reply (only.2 reply)⟩

theorem Work.ChangesOnly.of_forall {α : Type} {kind : String → Prop} (all : ∀ table, kind table)
    (current : Snapshot) (work : Work α) : work.ChangesOnly kind current := by
  induction work with
  | finish result => trivial
  | call request next ih => exact ⟨.of_forall all current request, ih⟩

section Compiled

variable {kind : String → Prop} {current : Snapshot} {table : String}

theorem Insert.kind_of_compile {rows : NewRows} {i : Insert}
    (only : ∀ t, current.resolve table = .ok t → kind t.name)
    (compiled : compile current table rows = .ok i) : kind i.table := by
  obtain ⟨t, found, named⟩ := resolve_of_compile compiled
  exact named ▸ only t found

theorem Update.kind_of_compile {set : RowValues} {filter : Filter} {u : Update}
    (only : ∀ t, current.resolve table = .ok t → kind t.name)
    (compiled : compile current table set filter = .ok u) : kind u.table := by
  obtain ⟨t, found, _, _, named⟩ := of_compile compiled
  exact named ▸ only t found

theorem Delete.kind_of_compile {filter : Filter} {d : Delete}
    (only : ∀ t, current.resolve table = .ok t → kind t.name)
    (compiled : compile current table filter = .ok d) : kind d.table := by
  obtain ⟨t, found, _, named⟩ := of_compile compiled
  exact named ▸ only t found

theorem BulkUpdate.kind_of_compile {rows : List RowValues} {keys : List String} {size : Nat}
    {b : BulkUpdate} (only : ∀ t, current.resolve table = .ok t → kind t.name)
    (compiled : compile current table rows keys size = .ok (some b)) : kind b.table := by
  obtain ⟨t, _, found, named, _⟩ := of_compile compiled
  exact named ▸ only t found

end Compiled

/-! ## Effects -/

namespace Request

variable {α β ρ : Type}

/-- The effect of a change by rows: that of all of them if it succeeds, and otherwise none, or that
of the rows before the one that does not succeed. -/
def RowsEffect (change : ρ → Change α) (rows : List ρ) (reply : Except Error Reply)
    (x y : Content) : Prop :=
  match reply with
  | .ok _ => RowByRow change rows x y
  | .error _ => y = x ∨ Interrupted change rows x y

/-- The effect of a request inside a transaction, told by the reply, the content before it and the
content after it. -/
def Effect (current : Snapshot) (settings : Settings) (reply : Except Error Reply)
    (x y : Content) : Request → Prop
  | insert table rows =>
      match Insert.compile current table rows with
      | .ok i => RowsEffect i.rowChange i.rows reply x y
      | .error e => reply = .error e ∧ y = x
  | bulkUpdate table rows keys size =>
      match BulkUpdate.compile current table rows keys (size.getD settings.defaultChunkSize) with
      | .ok (some b) => RowsEffect b.rowChange rows reply x y
      | .ok none => y = x
      | .error e => reply = .error e ∧ y = x
  | update table set filter =>
      match reply with
      | .ok _ => ∃ u n, Update.compile current table set filter = .ok u ∧
          (Change.update u).outcome x = (.ok n, y)
      | .error _ => y.database = x.database
  | delete table filter =>
      match reply with
      | .ok _ => ∃ d n, Delete.compile current table filter = .ok d ∧
          (Change.delete d).outcome x = (.ok n, y)
      | .error _ => y.database = x.database
  | create new =>
      match reply with
      | .ok _ => (Change.create new).outcome x = (.ok (), y)
      | .error _ => y.database = x.database
  | _ => y = x

/-- The effect of a request that one may wait for in vain: what it is answered with then tells
nothing of what it has done, which may be nothing. -/
def EffectInVain (current : Snapshot) (settings : Settings) (reply : Except Error Reply)
    (x y : Content) (request : Request) : Prop :=
  request.Effect current settings reply x y ∨
    reply = .error (.queryTimeout settings.operationTimeout) ∧
      (y = x ∨ ∃ unheard, request.Effect current settings unheard x y)

end Request

/-- The course of some work inside a transaction: the effects of its requests one after the other,
and its end. -/
inductive Work.Course {α : Type} (effect : Request → Except Error Reply → Content → Content → Prop) :
    Work α → Content → Except Error α → Content → Prop where
  | finish (result : Except Error α) (x : Content) : Course effect (.finish result) x result x
  | call {request : Request} {next : Except Error Reply → Work α} {reply : Except Error Reply}
      {result : Except Error α} {x y z : Content} (step : effect request reply x y)
      (later : Course effect (next reply) y result z) :
      Course effect (.call request next) x result z

/-! ## Changes under a tracker -/

namespace Tracker

variable {σ α β : Type} {table : String} {operation : Operation} {compiled : Except Error β}
  {run : β → Attempt σ Error α}

theorem finish_executing (outcome : Except Error α) :
    ((⟨table, operation, .executing⟩ : Tracker).finish outcome).1 = outcome := by
  cases outcome with
  | ok v => rfl
  | error e => rfl

/-- A tracker does not change how a compiled change ends. -/
theorem tracked_ok (request : β) (run : β → Attempt σ Error α) (s : σ) :
    (tracked table operation (.ok request) run).outcome s = (run request).outcome s := by
  have followed : (tracked table operation (.ok request) run).outcome s =
      (((⟨table, operation, .executing⟩ : Tracker).finish ((run request).outcome s).1).1,
        ((run request).outcome s).2) := rfl
  rw [followed, finish_executing]

/-- Nothing is run for a change that is not compiled. -/
theorem tracked_error (e : Error) (run : β → Attempt σ Error α) (s : σ) :
    (tracked table operation (.error e) run).outcome s = (.error e, s) :=
  rfl

/-- What holds of a compiled change holds of it under a tracker. -/
theorem tracked_ends {s : σ} {value : α → σ → Prop} {error : Error → σ → Prop}
    (refused : ∀ e, compiled = .error e → error e s)
    (runs : ∀ request, compiled = .ok request → (run request).Ends s value error) :
    (tracked table operation compiled run).Ends s value error := by
  cases compiled with
  | error e => exact .of_eq_error (tracked_error e run s) (refused e rfl)
  | ok request => exact .congr (tracked_ok request run s) (runs request rfl)

theorem tracked_keeps {p : σ → Prop} (keeps : ∀ request, compiled = .ok request →
    (run request).Keeps p) : (tracked table operation compiled run).Keeps p :=
  .of_ends fun _ holds => tracked_ends (fun _ _ => holds) fun request found =>
    (keeps request found).ends holds

end Tracker

theorem BulkReport.overChunks_keeps {σ : Type} {p : σ → Prop}
    {run : List RowValues → Attempt σ Error Nat} {chunks : List (List RowValues)}
    (keeps : ∀ chunk ∈ chunks, (run chunk).Keeps p) (report : BulkReport) :
    (overChunks run report chunks).Keeps p := by
  induction chunks generalizing report with
  | nil => exact .pure _
  | cons chunk rest ih =>
      obtain ⟨first, later⟩ := List.forall_mem_cons.mp keeps
      exact .bind first fun _ => ih later _

theorem Interrupted.extend {α ρ : Type} {change : ρ → Change α} {rows : List ρ} {x y : Content}
    (halted : Interrupted change rows x y) (more : List ρ) :
    Interrupted change (rows ++ more) x y := by
  obtain ⟨done, row, later, z, rfl, before, ended⟩ := halted
  exact ⟨done, row, later ++ more, z, by simp, before, ended⟩

/-- The chunks of a bulk update are its rows, whatever their size. -/
theorem BulkUpdate.flatten_chunks {snapshot : Snapshot} {table : String} {rows : List RowValues}
    {keys : List String} {size other : Nat} {b : BulkUpdate}
    (compiled : compile snapshot table rows keys size = .ok (some b)) (positive : 0 < other) :
    (b.chunks other).flatten = rows := by
  rw [chunks, rows_eq_of_compile compiled, flatten_pieces positive]

/-! ## Requests inside a transaction -/

section Machine

variable {σ α : Type} [Machine σ] {v : Aspect σ} {steady plain : String → Prop} {c : Nat}
  {db : Database} {x : Content} {t : σ}

namespace Connection

/-- What a body keeps of a transaction that is open is kept by a bracket around it. -/
theorem joined_keeps (laws : Transacts v) {mode : Mode} {body : Attempt σ Error α}
    (keeps : body.Keeps (v.Inside c db)) : (inTransaction c mode body).Keeps (v.Inside c db) :=
  .of_ends fun _ inside => joined_ends (laws.opened inside.choose_spec) (keeps.ends inside)

/-- What a body keeps of every transaction is done in one of its own. -/
theorem inTransaction_idle (laws : Transacts v) (known : v.known c) {body : Attempt σ Error α}
    (keeps : ∀ db, body.Keeps (v.Inside c db)) :
    (inTransaction c .immediate body).Keeps v.Idle := by
  refine .of_ends fun t ⟨db, rest⟩ => ?_
  refine (inTransaction_rest (q := fun _ _ => True) laws known rest .immediate
    fun entered within => ?_).mono ?_ fun _ _ rest => ⟨db, rest⟩
  · exact ((keeps db).ends ⟨_, within⟩).mono (fun _ _ ⟨y, held⟩ => ⟨y, trivial, held⟩)
      fun _ _ inside => inside
  · exact fun _ _ ⟨y, _, _, rest⟩ => ⟨y.database, rest⟩

variable (laws : Laws v steady plain)

include laws

theorem insertRows_steady (known : v.known c) {i : Insert} (calm : steady i.table) :
    (insertRows c i : Attempt σ Error InsertReport).Keeps (v.Inside c db) := by
  have taken : (Machine.takeInsert c i : Attempt σ Fault Unit).Keeps (v.Inside c db) :=
    fun s ⟨x, within⟩ => ⟨x, (laws.takeInsert i known).within db x s within⟩
  have inserted := Machine.insert_keeps taken fun row => laws.insertRow_steady row calm
  exact .bind inserted.mapError fun _ => .bind (.reading _) fun _ => .pure _

theorem updateBatch_steady (known : v.known c) {b : BulkUpdate} (calm : steady b.table)
    (rows : List RowValues) :
    (Machine.updateBatch c b rows : Attempt σ Fault Nat).Keeps (v.Inside c db) :=
  Machine.updateBatch_keeps
    (fun s ⟨x, within⟩ => ⟨x, (laws.takeBulk b known).within db x s within⟩)
    (fun row => laws.updateRow_steady row calm) rows

theorem insertRows_within (known : v.known c) {i : Insert} (clear : plain i.table)
    (within : v.Within c db x t) : (insertRows c i : Attempt σ Error InsertReport).Ends t
      (fun _ next => ∃ y, RowByRow i.rowChange i.rows x y ∧ v.Within c db y next)
      fun _ next => ∃ y, (y = x ∨ Interrupted i.rowChange i.rows x y) ∧ v.Within c db y next := by
  unfold insertRows
  refine (Ends.renamed (laws.insert_within known clear within)).bind ?_ fun _ _ kept => kept
  rintro affected reached ⟨rfl, y, done, held⟩
  exact .of_eq_ok rfl ⟨y, done, held⟩

theorem updateChunk_within (known : v.known c) {b : BulkUpdate} (clear : plain b.table)
    {rows : List RowValues} (some : rows ≠ []) (within : v.Within c db x t) :
    (updateChunk c b rows : Attempt σ Error Nat).Ends t
      (fun _ next => ∃ y, RowByRow b.rowChange rows x y ∧ v.Within c db y next)
      fun _ next => ∃ y, Interrupted b.rowChange rows x y ∧ v.Within c db y next :=
  joined_ends (laws.opened within) (Ends.renamed (laws.updateBatch_within known clear some within))

/-- Chunks inside a transaction are rows one after the other. -/
theorem overChunks_within (known : v.known c) {b : BulkUpdate} (clear : plain b.table)
    {chunks : List (List RowValues)} (some : ∀ chunk ∈ chunks, chunk ≠ []) (report : BulkReport)
    (within : v.Within c db x t) :
    (BulkReport.overChunks (updateChunk c b) report chunks : Attempt σ Error BulkReport).Ends t
      (fun _ next => ∃ y, RowByRow b.rowChange chunks.flatten x y ∧ v.Within c db y next)
      fun _ next => ∃ y, Interrupted b.rowChange chunks.flatten x y ∧ v.Within c db y next := by
  induction chunks generalizing report x t with
  | nil => exact .pure ⟨x, .none x, within⟩
  | cons chunk rest ih =>
      obtain ⟨nonempty, later⟩ := List.forall_mem_cons.mp some
      unfold BulkReport.overChunks
      refine (updateChunk_within laws known clear nonempty within).bind ?_ ?_
      · rintro affected reached ⟨y, done, held⟩
        refine (ih later (report.adding affected) held).mono ?_ ?_
        · rintro _ next ⟨z, rest, kept⟩
          exact ⟨z, done.append rest, kept⟩
        · rintro _ next ⟨z, halted, kept⟩
          exact ⟨z, done.interrupted halted, kept⟩
      · rintro e reached ⟨y, halted, held⟩
        exact ⟨y, halted.extend rest.flatten, held⟩

/-- A bulk update inside a transaction is its rows one after the other, however it is cut. -/
theorem bulkUpdate_within {snapshot : Snapshot} {table : String} {rows : List RowValues}
    {keys : List String} {size : Nat} {b : BulkUpdate} (known : v.known c) (clear : plain b.table)
    (within : v.Within c db x t)
    (compiled : BulkUpdate.compile snapshot table rows keys size = .ok (some b)) :
    (BulkReport.overChunks (updateChunk c b) {} (b.chunks size) :
        Attempt σ Error BulkReport).Ends t
      (fun _ next => ∃ y, RowByRow b.rowChange rows x y ∧ v.Within c db y next)
      fun _ next => ∃ y, Interrupted b.rowChange rows x y ∧ v.Within c db y next := by
  have positive : 0 < size := BulkUpdate.positive_of_compile compiled
  have nonempty : ∀ chunk ∈ b.chunks size, chunk ≠ [] := fun chunk member =>
    ne_nil_of_mem_pieces positive member
  have ends := overChunks_within laws known clear nonempty {} within
  rwa [BulkUpdate.flatten_chunks compiled positive] at ends

end Connection

namespace Session

variable {s : Session} (laws : Laws v steady plain) (settings : Settings)

include laws

/-! ### Requests that change nothing -/

theorem select_spares (known : v.known s.connection) (query : Query) :
    v.Spares s.connection (s.select query : Attempt σ Error (List Row)) :=
  .bind (.ofExcept _) fun plan => (laws.select plan known).mapError

theorem dump_spares (known : v.known s.connection) (table : String) :
    v.Spares s.connection (Connection.dump s.connection table : Attempt σ Error (List Row)) :=
  (laws.dump table known).mapError

theorem spin_spares (known : v.known s.connection) (limit : Nat) :
    v.Spares s.connection (Connection.spin s.connection limit : Attempt σ Error α) :=
  .bind (laws.spin known).mapError fun _ => .throw _

/-! ### Requests on steady tables -/

theorem create_inside (new : NewTable) :
    (Connection.create s.connection new : Attempt σ Error Nat).Keeps
      (v.Inside s.connection db) := by
  refine .mapError (.of_ends fun t ⟨x, within⟩ => (laws.create new within).mono ?_ ?_)
  · exact fun _ _ ⟨y, _, held⟩ => ⟨y, held⟩
  · exact fun _ _ ⟨y, _, held⟩ => ⟨y, held⟩

/-- A request on steady tables keeps whatever is kept by work that changes nothing, by the creation
of tables and by brackets around changes. -/
theorem inSession_keeps_of {p : σ → Prop} (known : v.known s.connection)
    (spared : ∀ {β : Type} {a : Attempt σ Error β}, v.Spares s.connection a → a.Keeps p)
    (created : ∀ new, (Connection.create s.connection new : Attempt σ Error Nat).Keeps p)
    (changed : ∀ {β : Type} {body : Attempt σ Error β},
      (∀ db, body.Keeps (v.Inside s.connection db)) →
        (Connection.inTransaction s.connection .immediate body).Keeps p)
    {request : Request} (only : request.ChangesOnly steady s.snapshot) :
    (request.inSession s settings : Attempt σ Error Reply).Keeps p := by
  cases request with
  | select query => exact .bind (spared (select_spares laws known query)) fun _ => .pure _
  | insert table rows =>
      refine .bind (Tracker.tracked_keeps fun i compiled => changed fun _ => ?_) fun _ => .pure _
      exact Connection.insertRows_steady laws known (Insert.kind_of_compile only compiled)
  | update table set filter =>
      refine .bind (Tracker.tracked_keeps fun u compiled => changed fun _ => ?_) fun _ => .pure _
      exact (laws.update_steady (Update.kind_of_compile only compiled)).mapError
  | delete table filter =>
      refine .bind (Tracker.tracked_keeps fun d compiled => changed fun _ => ?_) fun _ => .pure _
      exact (laws.delete_steady (Delete.kind_of_compile only compiled)).mapError
  | bulkUpdate table rows keys size =>
      refine .bind (Tracker.tracked_keeps fun request compiled => ?_) fun _ => .pure _
      cases request with
      | none => exact .pure _
      | some b =>
          have calm : steady b.table := BulkUpdate.kind_of_compile only compiled
          exact BulkReport.overChunks_keeps (fun chunk _ => changed fun _ =>
            (Connection.updateBatch_steady laws known calm chunk).mapError) _
  | dump table => exact .bind (spared (dump_spares laws known table)) fun _ => .pure _
  | create new => exact .bind (created new) fun _ => .pure _
  | catalog => exact .pure _
  | runaway => exact spared (spin_spares laws known _)
  | fail e => exact .throw e

/-- A request on steady tables leaves the transaction open. -/
theorem inSession_inside (known : v.known s.connection) {request : Request}
    (only : request.ChangesOnly steady s.snapshot) :
    (request.inSession s settings : Attempt σ Error Reply).Keeps (v.Inside s.connection db) :=
  inSession_keeps_of laws settings known (fun spares => spares.inside) (create_inside laws)
    (fun keeps => Connection.joined_keeps laws.toTransacts (keeps db)) only

/-- A request on steady tables outside of a transaction leaves none open. -/
theorem inSession_idle (known : v.known s.connection) {request : Request}
    (only : request.ChangesOnly steady s.snapshot) :
    (request.inSession s settings : Attempt σ Error Reply).Keeps v.Idle :=
  inSession_keeps_of laws settings known (fun spares => spares.idle)
    (fun new => (laws.create_idle new known).mapError)
    (Connection.inTransaction_idle laws.toTransacts known) only

section Idle

variable {table : String} (only : ∀ t, s.snapshot.resolve table = .ok t → steady t.name)

include only

theorem insert_idle (known : v.known s.connection) (rows : NewRows) :
    (s.insert table rows : Attempt σ Error InsertReport).Keeps v.Idle :=
  Tracker.tracked_keeps fun _ compiled => Connection.inTransaction_idle laws.toTransacts known
    fun _ => Connection.insertRows_steady laws known (Insert.kind_of_compile only compiled)

theorem update_idle (known : v.known s.connection) (set : RowValues) (filter : Filter) :
    (s.update table set filter : Attempt σ Error Nat).Keeps v.Idle :=
  Tracker.tracked_keeps fun _ compiled => Connection.inTransaction_idle laws.toTransacts known
    fun _ => (laws.update_steady (Update.kind_of_compile only compiled)).mapError

theorem delete_idle (known : v.known s.connection) (filter : Filter) :
    (s.delete table filter : Attempt σ Error Nat).Keeps v.Idle :=
  Tracker.tracked_keeps fun _ compiled => Connection.inTransaction_idle laws.toTransacts known
    fun _ => (laws.delete_steady (Delete.kind_of_compile only compiled)).mapError

omit only in
theorem updateChunk_idle (known : v.known s.connection) {b : BulkUpdate} (calm : steady b.table)
    (chunk : List RowValues) :
    (Connection.updateChunk s.connection b chunk : Attempt σ Error Nat).Keeps v.Idle :=
  Connection.inTransaction_idle laws.toTransacts known fun _ =>
    (Connection.updateBatch_steady laws known calm chunk).mapError

end Idle

/-! ### Requests on plain tables -/

omit laws [Machine σ] in
/-- Work that changes nothing leaves the content of a transaction as it is. -/
theorem unchanged_ends {a : Attempt σ Error α} (spares : v.Spares c a)
    (within : v.Within c db x t) : a.Ends t (fun _ next => ∃ y, y = x ∧ v.Within c db y next)
      fun _ next => ∃ y, y = x ∧ v.Within c db y next :=
  ((spares.within db x).ends within).mono (fun _ _ held => ⟨x, rfl, held⟩)
    fun _ _ held => ⟨x, rfl, held⟩

/-- A request inside a transaction has its effect on the content, and leaves the transaction
open. -/
theorem inSession_within (known : v.known s.connection) (within : v.Within s.connection db x t)
    {request : Request} (only : request.ChangesOnly plain s.snapshot) :
    (request.inSession s settings : Attempt σ Error Reply).Ends t
      (fun reply next => ∃ y, request.Effect s.snapshot settings (.ok reply) x y ∧
        v.Within s.connection db y next)
      fun e next => ∃ y, request.Effect s.snapshot settings (.error e) x y ∧
        v.Within s.connection db y next := by
  have opened : Machine.isOpen t s.connection = true := laws.opened within
  cases request with
  | select query => exact .wrapped (unchanged_ends (select_spares laws known query) within)
  | insert table rows =>
      refine .wrapped (Tracker.tracked_ends ?_ ?_)
      · intro e refused
        refine ⟨x, ?_, within⟩
        simp [Request.Effect, refused]
      · intro i compiled
        simp only [Request.Effect, compiled]
        exact Connection.joined_ends opened (Connection.insertRows_within laws known
          (Insert.kind_of_compile only compiled) within)
  | update table set filter =>
      refine .wrapped (Tracker.tracked_ends ?_ ?_)
      · exact fun e _ => ⟨x, rfl, within⟩
      · intro u compiled
        refine Connection.joined_ends opened (Ends.renamed
          (laws.update (Update.kind_of_compile only compiled) within)
          |>.mono ?_ fun _ _ kept => kept)
        rintro n next ⟨y, _, changed, held⟩
        exact ⟨y, ⟨u, n, compiled, changed⟩, held⟩
  | delete table filter =>
      refine .wrapped (Tracker.tracked_ends ?_ ?_)
      · exact fun e _ => ⟨x, rfl, within⟩
      · intro d compiled
        refine Connection.joined_ends opened (Ends.renamed
          (laws.delete (Delete.kind_of_compile only compiled) within)
          |>.mono ?_ fun _ _ kept => kept)
        rintro n next ⟨y, _, changed, held⟩
        exact ⟨y, ⟨d, n, compiled, changed⟩, held⟩
  | bulkUpdate table rows keys size =>
      refine .wrapped (Tracker.tracked_ends ?_ ?_)
      · intro e refused
        refine ⟨x, ?_, within⟩
        simp [Request.Effect, refused]
      · intro request compiled
        simp only [Request.Effect, compiled]
        cases request with
        | none => exact .pure ⟨x, rfl, within⟩
        | some b =>
            refine (Connection.bulkUpdate_within laws known
              (BulkUpdate.kind_of_compile only compiled) within compiled).mono ?_ ?_
            · exact fun _ _ done => done
            · exact fun _ _ ⟨y, halted, held⟩ => ⟨y, .inr halted, held⟩
  | dump table => exact .wrapped (unchanged_ends (dump_spares laws known table) within)
  | create new =>
      refine .wrapped ((Ends.renamed (laws.create new within)).mono ?_ ?_)
      · exact fun _ _ created => created
      · exact fun _ _ kept => kept
  | catalog => exact .pure ⟨x, rfl, within⟩
  | runaway => exact unchanged_ends (spin_spares laws known _) within
  | fail e => exact .throw ⟨x, rfl, within⟩

end Session

/-! ## Work inside a transaction -/

namespace Work

variable {s : Session} (laws : Laws v steady plain) (settings : Settings)

include laws

theorem inSession_inside (known : v.known s.connection) {work : Work α}
    (only : work.ChangesOnly steady s.snapshot) :
    (work.inSession s settings : Attempt σ Error α).Keeps (v.Inside s.connection db) := by
  induction work with
  | finish result => exact .ofExcept result
  | call request next ih =>
      exact .bind (Session.inSession_inside laws settings known only.1).observe fun reply =>
        ih reply (only.2 reply)

/-- Some work inside a transaction takes its course on the content, and leaves the transaction
open. -/
theorem inSession_within (known : v.known s.connection) {work : Work α}
    (only : work.ChangesOnly plain s.snapshot) (within : v.Within s.connection db x t) :
    (work.inSession s settings : Attempt σ Error α).Ends t
      (fun w next => ∃ y, work.Course (fun request reply x y =>
          request.Effect s.snapshot settings reply x y) x (.ok w) y ∧
        v.Within s.connection db y next)
      fun e next => ∃ y, work.Course (fun request reply x y =>
          request.Effect s.snapshot settings reply x y) x (.error e) y ∧
        v.Within s.connection db y next := by
  induction work generalizing x t with
  | finish result =>
      refine (Ends.ofExcept result).mono ?_ ?_
      · rintro w _ ⟨rfl, rfl⟩
        exact ⟨x, .finish _ x, within⟩
      · rintro e _ ⟨rfl, rfl⟩
        exact ⟨x, .finish _ x, within⟩
  | call request next ih =>
      refine .observing ((Session.inSession_within laws settings known within only.1).mono ?_ ?_)
      · rintro reply reached ⟨y, effect, held⟩
        refine (ih _ (only.2 _) held).mono ?_ ?_
        · exact fun _ _ ⟨z, course, kept⟩ => ⟨z, .call effect course, kept⟩
        · exact fun _ _ ⟨z, course, kept⟩ => ⟨z, .call effect course, kept⟩
      · rintro e reached ⟨y, effect, held⟩
        refine (ih _ (only.2 _) held).mono ?_ ?_
        · exact fun _ _ ⟨z, course, kept⟩ => ⟨z, .call effect course, kept⟩
        · exact fun _ _ ⟨z, course, kept⟩ => ⟨z, .call effect course, kept⟩

end Work

end Machine

end TableAccess
