import TableAccess.Proofs.Session.Scope
import TableAccess.Proofs.Store.Discovery
import TableAccess.Proofs.Store.Insertion
import TableAccess.Session.Loan

/-!
# Reported row numbers

An insert reports a number if it was asked for one row, and if a column of the table numbers its
rows. On a plain table, of which the catalog tells as much as the store, the number that the
connection remembers then is the one of the row that was put in, and no other row of the table shows
it there. This holds of whatever way an insert takes: over a lent connection, where every row is a
statement of its own, in a session, with or without an open transaction, and over a handle.
-/

namespace TableAccess

open Attempt (Ends Keeps)
open Machine (Aspect Laws)

/-- What an insert reports, and what has become of the table: each row that was handed in is held by
a new one, and the rows that were there are there still. A number is reported exactly if there was a
single row and the table has one key column, of integers; unless the key is in descending order,
just one row shows the number in that column then, the new one. -/
structure StoredTable.Inserted (t : StoredTable) (rows : NewRows) (report : InsertReport)
    (new stored : List StoredRow) : Prop extends t.Grown rows.toList new stored where
  affected : report.affected = rows.size
  reported : (∃ k, report.lastId = some k) ↔
    rows.isSingle = true ∧ ∃ key, t.definition.KeyedBy key
  identified : ∀ k, report.lastId = some k → ∃ key row, t.definition.KeyedBy key ∧
    new = [row] ∧ row ∉ t.rows ∧ (key.descending = false →
      stored.filter (fun other => t.cellAt other key.name = .integer k) = [row])

/-- What an insert that succeeds has made of a database: it has added rows to a table, and nothing
else is different. -/
def Database.Inserted (before : Database) (table : String) (rows : NewRows)
    (report : InsertReport) (after : Database) : Prop :=
  ∃ t new stored, before.table? table = some t ∧
    after = before.replaceTable { t with rows := stored } ∧ t.Inserted rows report new stored

theorem StoredTable.Grown.inserted {t : StoredTable} {rows : NewRows} {report : InsertReport}
    {new stored : List StoredRow} (grown : t.Grown rows.toList new stored)
    (affected : report.affected = rows.size)
    (reported : (∃ k, report.lastId = some k) ↔
      (rows.isSingle && t.definition.describe.rowidAlias?.isSome) = true)
    (remembered : ∀ k, report.lastId = some k → t.definition.withoutRowid = false →
      ∀ last ∈ new.getLast?, k = last.number) :
    t.Inserted rows report new stored := by
  rw [Bool.and_eq_true, Definition.isSome_rowidAlias?_describe] at reported
  refine ⟨grown, affected, reported, fun k told => ?_⟩
  obtain ⟨single, key, keyed⟩ := reported.mp ⟨k, told⟩
  obtain ⟨values, listed⟩ : ∃ values, rows.toList = [values] := by
    cases rows with
    | single values => exact ⟨values, rfl⟩
    | many _ => cases single
  have held := grown.holds
  rw [listed] at held
  obtain ⟨row, _, _, none, rfl⟩ := List.forall₂_cons_left_iff.mp held
  cases List.forall₂_nil_left_iff.mp none
  have member : row ∈ stored := grown.perm.mem_iff.mpr List.mem_cons_self
  cases remembered k told keyed.numbered row rfl
  refine ⟨key, row, keyed, rfl, grown.fresh List.mem_cons_self, fun ascending => ?_⟩
  exact grown.sound.filter_key ⟨keyed, ascending⟩ member

/-! ## Rows of a statement -/

section Machine

variable {σ : Type} {v : Aspect σ} {steady plain : String → Prop} {c : Nat} {s : σ} {db : Database}
  {held : Database → σ → Prop} {i : Insert}

/-- How a connection has a database before it: none of the known connections has a transaction open,
or it has one itself. -/
inductive Machine.Aspect.Holding (v : Aspect σ) (c : Nat) : (Database → σ → Prop) → Prop where
  | rest : v.Holding c v.Rest
  | within (base : Database) : v.Holding c fun db s => ∃ x, v.Within c base x s ∧ x.database = db

theorem Machine.Aspect.Spares.holding {ε α : Type} {a : Attempt σ ε α} (spares : v.Spares c a)
    (holding : v.Holding c held) (db : Database) : a.Keeps (held db) := by
  cases holding with
  | rest => exact spares.rest db
  | within base => exact fun s ⟨x, within, same⟩ => ⟨x, spares.within base x s within, same⟩

variable [Machine σ] (laws : Laws v steady plain) (known : v.known c)
  (holding : v.Holding c held)

include laws known holding

theorem Machine.insertRow_gains {row : RowValues} (clear : plain i.table)
    (even : row.keys = i.columns) (holds : held db s) :
    (Machine.insertRow c i row.values : Attempt σ Fault Unit).Ends s
      (fun _ t => ∃ new later, db.Gains i.table row.cells new later ∧ held later t ∧
        ∀ stored, db.table? i.table = some stored → stored.definition.withoutRowid = false →
          Machine.lastNumber t c = new.number)
      fun _ _ => True := by
  cases holding with
  | rest =>
      refine (laws.insertRow_alone row.values clear known holds).mono ?_ fun _ _ _ => trivial
      rintro _ t ⟨number, y, ended, rest, told⟩
      obtain ⟨new, rfl, gains⟩ := Change.gains_of_rowChange even ended
      exact ⟨new, _, gains, rest, told⟩
  | within base =>
      obtain ⟨x, within, rfl⟩ := holds
      refine (laws.insertRow row.values clear within).mono ?_ fun _ _ _ => trivial
      rintro _ t ⟨number, y, ended, within, told⟩
      obtain ⟨new, rfl, gains⟩ := Change.gains_of_rowChange even ended
      exact ⟨new, _, gains, ⟨y, within, rfl⟩, told⟩

/-- The rows of an insert are put in one after the other, and the connection remembers the number of
the last one. -/
theorem Machine.insertRows_gains {values : List RowValues} (clear : plain i.table)
    (even : ∀ row ∈ values, row.keys = i.columns) (holds : held db s) :
    (Machine.insertRows c i (values.map NameMap.values) : Attempt σ Fault Nat).Ends s
      (fun n t => n = values.length ∧ ∃ new later, Database.GainsAll i.table values new db later ∧
        held later t ∧ ∀ stored, db.table? i.table = some stored →
          stored.definition.withoutRowid = false →
            Machine.lastNumber t c = (new.getLast?.map (·.number)).getD (Machine.lastNumber s c))
      fun _ _ => True := by
  induction values generalizing db s with
  | nil => exact .pure ⟨rfl, [], db, .none db, holds, fun _ _ _ => rfl⟩
  | cons row rest ih =>
      obtain ⟨here, others⟩ := List.forall_mem_cons.mp even
      refine (insertRow_gains laws known holding clear here holds).bind ?_ fun _ _ _ => trivial
      rintro _ reached ⟨first, mid, gains, holds, told⟩
      refine (ih others holds).bind ?_ fun _ _ _ => trivial
      rintro n t ⟨rfl, more, later, all, holds, last⟩
      refine .pure ⟨rfl, first :: more, later, .next gains all, holds, ?_⟩
      intro stored found numbered
      obtain ⟨_, _, rfl⟩ := gains.of_table? found
      rw [last _ (Database.table?_replaceTable found _) numbered, told stored found numbered,
        List.getLast?_cons]
      cases more.getLast? with
      | none => rfl
      | some final => rfl

/-- A number is reported if the insert asks for one, and it is the one that the connection remembers
then. -/
theorem Connection.insertRows_gains {values : List RowValues} (clear : plain i.table)
    (rows : i.rows = values.map NameMap.values) (even : ∀ row ∈ values, row.keys = i.columns)
    (holds : held db s) : (insertRows c i : Attempt σ Error InsertReport).Ends s
      (fun report t => report.affected = values.length ∧ ∃ new later,
        Database.GainsAll i.table values new db later ∧ held later t ∧
        ((∃ k, report.lastId = some k) ↔ i.reportsLastId = true) ∧
        ∀ k stored, report.lastId = some k → db.table? i.table = some stored →
          stored.definition.withoutRowid = false → ∀ last ∈ new.getLast?, k = last.number)
      fun _ _ => True := by
  have inserts : (Machine.insert c i : Attempt σ Fault Nat).Ends s
      (fun n t => n = values.length ∧ ∃ new later, Database.GainsAll i.table values new db later ∧
        held later t ∧ ∀ stored, db.table? i.table = some stored →
          stored.definition.withoutRowid = false → ∀ last ∈ new.getLast?,
            Machine.lastNumber t c = last.number)
      fun _ _ => True := by
    refine (((laws.takeInsert i known).holding holding db).ends holds).bind ?_ fun _ _ _ => trivial
    rintro _ taken holds
    rw [rows]
    refine (Machine.insertRows_gains laws known holding clear even holds).mono ?_
      fun _ _ kept => kept
    rintro n t ⟨counted, new, later, gains, holds, told⟩
    refine ⟨counted, new, later, gains, holds, fun stored found numbered last final => ?_⟩
    rw [told stored found numbered, final]
    rfl
  unfold insertRows
  refine (Ends.renamed inserts).bind ?_ fun _ _ _ => trivial
  rintro affected reached ⟨rfl, new, later, gains, holds, told⟩
  refine .of_eq_ok rfl ⟨rfl, new, later, gains, holds, ?_, ?_⟩
  · cases i.reportsLastId with
    | true => simp
    | false => simp
  · intro k stored reported found numbered last final
    dsimp only at reported
    split at reported
    · cases reported
      exact told stored found numbered last final
    · cases reported

/-- An insert that was checked against what the store holds. -/
theorem Connection.insertRows_inserted {snapshot : Snapshot} {table : String} {rows : NewRows}
    (sound : db.Sound) (current : snapshot.Current plain db)
    (only : ∀ t, snapshot.resolve table = .ok t → plain t.name)
    (accepted : Insert.compile snapshot table rows = .ok i) (holds : held db s) :
    (insertRows c i : Attempt σ Error InsertReport).Ends s
      (fun report t => ∃ described later, snapshot.resolve table = .ok described ∧
        db.Inserted described.name rows report later ∧ held later t)
      fun _ _ => True := by
  obtain ⟨listed, even⟩ := Insert.of_compile accepted
  obtain ⟨described, first, rest, resolved, shape, has, _, whole⟩ :=
    Insert.compile_eq_ok_iff.mp accepted
  have target : i.table = described.name := by rw [whole]
  have columns : i.columns = first.keys := by rw [whole]
  have asked : i.reportsLastId = (rows.isSingle && described.rowidAlias?.isSome) := by rw [whole]
  have clear : plain described.name := only described resolved
  refine (insertRows_gains laws known holding (target ▸ clear) listed even holds).mono ?_
    fun _ _ _ => trivial
  rintro report t ⟨affected, new, later, gains, holds, reported, remembered⟩
  rw [target] at gains remembered
  obtain ⟨own, found⟩ := gains.exists_table (by rw [shape]; exact List.cons_ne_nil _ _)
  have same : described = own.definition.describe := current _ _ _ resolved clear found
  rw [same] at has asked
  obtain ⟨stored, reached, grown⟩ := gains.grown sound found fun row member key named =>
    has key (columns ▸ even row member ▸ named)
  rw [asked] at reported
  exact ⟨described, later, resolved, ⟨own, new, stored, found, reached, grown.inserted affected
    reported fun k told numbered => remembered k own told found numbered⟩, holds⟩

/-! ## The ways of an insert -/

variable {table : String} {rows : NewRows}

theorem Session.insert_inserted {snapshot : Snapshot} (sound : db.Sound)
    (current : snapshot.Current plain db)
    (only : ∀ t, snapshot.resolve table = .ok t → plain t.name) (holds : held db s) :
    (Session.insert ⟨c, snapshot⟩ table rows : Attempt σ Error InsertReport).Ends s
      (fun report t => ∃ described later, snapshot.resolve table = .ok described ∧
        db.Inserted described.name rows report later ∧ held later t)
      fun _ _ => True := by
  refine Tracker.tracked_ends (fun _ _ => trivial) fun i accepted => ?_
  have inserts {held : Database → σ → Prop} {t : σ} (holding : v.Holding c held)
      (holds : held db t) :=
    Connection.insertRows_inserted laws known holding sound current only accepted holds
  cases holding with
  | within base =>
      obtain ⟨x, within, _⟩ := id holds
      exact Connection.joined_ends (laws.opened within) (inserts (.within base) holds)
  | rest =>
      refine (Connection.inTransaction_rest (q := fun report y => ∃ described,
        snapshot.resolve table = .ok described ∧
          db.Inserted described.name rows report y.database) laws.toTransacts known holds .immediate
        fun entered within => ?_).mono ?_ fun _ _ _ => trivial
      · have calm := laws.steady_of_plain (Insert.kind_of_compile only accepted)
        refine ((inserts (.within db) ⟨_, within, rfl⟩).and
          ((Connection.insertRows_steady laws known calm).ends ⟨_, within⟩)).mono ?_
          fun _ _ ⟨_, inside⟩ => inside
        rintro report t ⟨⟨described, _, resolved, inserted, x, within, rfl⟩, _⟩
        exact ⟨x, ⟨described, resolved, inserted⟩, within⟩
      · rintro report t ⟨y, ⟨described, resolved, inserted⟩, _, rest⟩
        exact ⟨described, y.database, resolved, inserted, rest⟩

end Machine

/-- What is discovered is current, and knows tables by the names that they have. -/
def Machine.Discovers {σ : Type} [Machine σ] (v : Aspect σ) (plain : String → Prop) : Prop :=
  ∀ (c : Nat) (held : Database → σ → Prop) (db : Database) (s : σ) (whole : String), v.known c →
    v.Holding c held → held db s → db.Sound →
    (Machine.discover c whole : Attempt σ (String × Fault) Snapshot).Ends s
      (fun snapshot _ => snapshot.Current plain db ∧
        ∀ name described, snapshot.resolve name = .ok described → described.name = name)
      fun _ _ => True

theorem Store.aspect_discovers (p : List Nat → Store → Prop) (lent : List Nat) (outside : Store) :
    Machine.Discovers (aspect p lent outside) fun _ => True := by
  intro c held db s whole _ holding holds sound
  have same : s.database = db := by
    cases holding with
    | rest => exact holds.1.database
    | within base =>
        obtain ⟨x, ⟨_, _, _, _, _, within⟩, rfl⟩ := holds
        exact within.database
  refine Ends.mono (discover_notes whole) ?_ fun _ _ _ => trivial
  rintro snapshot _ ⟨_, found⟩
  rw [same] at found
  exact ⟨Snapshot.current_of_discover sound found _, fun name described resolved =>
    (Snapshot.describes_of_discover found name described resolved).1⟩

section Machine

variable {σ : Type} [Machine σ] {v : Aspect σ} {steady plain : String → Prop}
  (laws : Laws v steady plain)

include laws

theorem LoanRequest.insert_inserted (discovers : Machine.Discovers v plain) {c : Nat} {s : σ}
    {db : Database} {held : Database → σ → Prop} {table : String} {rows : NewRows}
    (known : v.known c) (holding : v.Holding c held) (sound : db.Sound) (clear : plain table)
    (holds : held db s) :
    ((LoanRequest.insert table rows).onConnection c : Attempt σ Error Reply).Ends s
      (fun reply t => ∃ report later, reply = .inserted report ∧ db.Inserted table rows report later ∧
        held later t)
      fun _ _ => True := by
  have found := (discovers c held db s "pragma_table_list" known holding holds sound).and
    (((laws.discover "pragma_table_list" known).holding holding db).ends holds)
  refine (Ends.renamed (found.mono (fun _ _ kept => kept) fun _ _ _ => trivial)).bind ?_
    fun _ _ _ => trivial
  rintro snapshot reached ⟨⟨current, named⟩, holds⟩
  refine (Ends.ofExcept _).bind ?_ fun _ _ _ => trivial
  rintro i _ ⟨rfl, accepted⟩
  have only (t : Table) (resolved : snapshot.resolve table = .ok t) : plain t.name :=
    named table t resolved ▸ clear
  refine (Connection.insertRows_inserted laws known holding sound current only accepted holds).bind ?_
    fun _ _ _ => trivial
  rintro report next ⟨described, later, resolved, inserted, holds⟩
  exact .pure ⟨report, later, rfl, named table described resolved ▸ inserted, holds⟩

theorem Handle.insert_makes {lent : List Nat} {h : Handle σ} {db : Database} {table : String}
    {rows : NewRows} (settled : h.Settled v lent db) (sound : db.Sound)
    (current : h.catalog.current.Current plain db)
    (only : ∀ t, h.catalog.current.resolve table = .ok t → plain t.name) :
    Makes v lent h db (insert table rows) (Async.insert table rows) fun report later =>
      ∃ described, h.catalog.current.resolve table = .ok described ∧
        db.Inserted described.name rows report later := by
  rw [insert_eq]
  refine withSession_makes laws.toTransacts (fun s => s.insert_awaits table rows) settled
    fun c s known rest => ?_
  refine ((Session.insert_inserted laws known .rest sound current only rest).and
    (Session.insert_rest (s := ⟨c, h.catalog.current⟩) laws known rest only rows)).mono ?_
    fun _ _ ⟨_, kept⟩ => kept
  rintro report t ⟨⟨described, later, resolved, inserted, rest⟩, _⟩
  exact ⟨later, ⟨described, resolved, inserted⟩, rest⟩

/-- An insert into a plain table that succeeds, over a lent connection against what the store holds,
in a session or over a handle whose catalog is current, has put one row into the table for each that
was handed in, and has left everything else as it was. It reports a number exactly if it was asked
for a single row, and the table numbers its rows and has one key column, which is declared as an
integer. Unless it is so in descending order, that is the number of the new row, which no row had
before, and the only one that the key column shows it for. -/
theorem last_id_is_of_new_row (discovers : Machine.Discovers v plain) (table : String)
    (rows : NewRows) :
    (∀ c held db (s : σ) report next, v.known c → v.Holding c held → held db s → db.Sound →
      plain table →
      ((LoanRequest.insert table rows).onConnection c).outcome s = (.ok (.inserted report), next) →
        ∃ later, db.Inserted table rows report later ∧ held later next) ∧
    (∀ (session : Session) held db (s : σ) report next, v.known session.connection →
      v.Holding session.connection held → held db s → db.Sound →
      session.snapshot.Current plain db →
      (∀ t, session.snapshot.resolve table = .ok t → plain t.name) →
      (session.insert table rows).outcome s = (.ok report, next) →
        ∃ described later, session.snapshot.resolve table = .ok described ∧
          db.Inserted described.name rows report later ∧ held later next) ∧
    (∀ (session : AsyncSession) held db (s : Timed σ) report next, v.known session.connection →
      v.Holding session.connection held → held db s.state → db.Sound →
      session.snapshot.Current plain db →
      (∀ t, session.snapshot.resolve table = .ok t → plain t.name) →
      (session.insert table rows).outcome s = (.ok report, next) →
        ∃ described later, session.snapshot.resolve table = .ok described ∧
          db.Inserted described.name rows report later ∧ held later next.state) ∧
    ∀ lent (h : Handle σ) db, h.Settled v lent db → db.Sound → h.catalog.current.Current plain db →
      (∀ t, h.catalog.current.resolve table = .ok t → plain t.name) →
      Handle.Makes v lent h db (Handle.insert table rows) (Handle.Async.insert table rows)
        fun report later => ∃ described, h.catalog.current.resolve table = .ok described ∧
          db.Inserted described.name rows report later := by
  refine ⟨?lent, ?session, ?suspended, ?handle⟩
  case lent =>
    intro c held db s report next known holding holds sound clear ended
    obtain ⟨own, later, same, made⟩ := (LoanRequest.insert_inserted laws discovers known holding sound
      clear holds).holds_ok ended
    cases same
    exact ⟨later, made⟩
  case session =>
    intro session held db s report next known holding holds sound current only ended
    exact (Session.insert_inserted laws known holding sound current only holds).holds_ok ended
  case suspended =>
    intro session held db s report next known holding holds sound current only ended
    have inserts : (session.waiting.insert table rows : Attempt σ Error InsertReport).Ends s.state
        _ _ := Session.insert_inserted laws known holding sound current only holds
    exact (((session.insert_awaits table rows).ends inserts).holds_ok ended).1
  case handle =>
    exact fun lent h db settled sound current only =>
      Handle.insert_makes laws settled sound current only

end Machine

/-! ## Another pet -/

def newPet (number : List (String × Value)) : NewRows :=
  .single (.ofList (number ++ [("name", .text "Max"), ("owner", .int 1)]))

theorem discover_kennel : ((kennel "Rex").discover).map Snapshot.ofList =
    .ok kennelHandle.catalog.current := by
  unfold Database.discover
  dsimp only
  rw [List.mergeSort_of_pairwise (by decide)]
  rfl

theorem discover_outcome_kennel (c : Nat) :
    (Connection.discover c : Attempt Store Error Snapshot).outcome kennelHandle.store =
      (.ok kennelHandle.catalog.current, kennelHandle.store.counted) := by
  have found : (Store.discover c "pragma_table_list").outcome kennelHandle.store =
      (.ok kennelHandle.catalog.current, kennelHandle.store.counted) := by
    unfold Store.discover
    rw [Attempt.outcome_bind]
    exact congrArg (·, kennelHandle.store.counted) discover_kennel
  exact Attempt.outcome_renamed found

/-- The number of a new pet is given, null or not given. -/
theorem last_id_is_of_new_row_kennel :
    (∃ next, ((LoanRequest.insert "pets" (newPet [("id", .text "7")])).onConnection 3).outcome
        kennelHandle.store = (.ok (.inserted ⟨some 7, 1⟩), next) ∧
      (kennel "Rex").Inserted "pets" (newPet [("id", .text "7")]) ⟨some 7, 1⟩ next.database) ∧
    (∃ next, (Session.insert ⟨3, kennelHandle.catalog.current⟩ "pets"
        (newPet [("id", .null)])).outcome kennelHandle.store = (.ok ⟨some 2, 1⟩, next) ∧
      (kennel "Rex").Inserted "pets" (newPet [("id", .null)]) ⟨some 2, 1⟩ next.database) ∧
    ∃ next, (Handle.insert "pets" (newPet [])).outcome kennelHandle = (.ok ⟨some 2, 1⟩, next) ∧
      (kennel "Rex").Inserted "pets" (newPet []) ⟨some 2, 1⟩ next.store.database := by
  have sound : (kennel "Rex").Sound := by decide
  have settled := settled_kennelWhen "Rex"
  have current : kennelHandle.catalog.current.Current (fun _ => True) (kennel "Rex") :=
    Snapshot.current_of_discover sound discover_kennel _
  obtain ⟨next, lent⟩ : ∃ next, ((LoanRequest.insert "pets"
      (newPet [("id", .text "7")])).onConnection 3).outcome kennelHandle.store =
        (.ok (.inserted ⟨some 7, 1⟩), next) := by
    rw [LoanRequest.onConnection, Attempt.outcome_bind, discover_outcome_kennel]
    exact ⟨_, rfl⟩
  obtain ⟨second, inSession⟩ : ∃ next, (Session.insert ⟨3, kennelHandle.catalog.current⟩ "pets"
      (newPet [("id", .null)])).outcome kennelHandle.store = (.ok ⟨some 2, 1⟩, next) := ⟨_, rfl⟩
  have added : ((Handle.insert "pets" (newPet [])).outcome kennelHandle).1 = .ok ⟨some 2, 1⟩ := by
    decide +kernel
  obtain ⟨third, onHandle⟩ : ∃ next, (Handle.insert "pets" (newPet [])).outcome kennelHandle =
      (.ok ⟨some 2, 1⟩, next) := ⟨_, Prod.ext added rfl⟩
  have ways := last_id_is_of_new_row (kennelView_laws "Rex") (Store.aspect_discovers _ _ _) "pets"
  refine ⟨⟨next, lent, ?_⟩, ⟨second, inSession, ?_⟩, ⟨third, onHandle, ?_⟩⟩
  · obtain ⟨_, inserted, rest⟩ := (ways _).1 3 _ _ _ _ _ List.not_mem_nil .rest settled.store sound
      trivial lent
    exact rest.1.database ▸ inserted
  · obtain ⟨_, _, resolved, inserted, rest⟩ := (ways _).2.1 _ _ _ _ _ _ List.not_mem_nil .rest
      settled.store sound current (fun _ _ => trivial) inSession
    cases resolved
    exact rest.1.database ▸ inserted
  · obtain ⟨_, ⟨_, resolved, inserted⟩, back⟩ := ((ways _).2.2.2 [] kennelHandle _ settled sound
      current fun _ _ => trivial).of_ok onHandle
    cases resolved
    exact back.store.1.database ▸ inserted

/-- A handle on a table of scales, whose key may be declared in descending order. -/
def scalesHandle (descending : Bool) : Handle where
  engine := .blocking
  settings := .ofConnection "file:scales?mode=memory&cache=shared"
  catalog := .ofSnapshot (.ofList
    [⟨"scales", [⟨"id", "INTEGER", true, true⟩, ⟨"shown", "REAL", true, false⟩], false⟩])
  store :=
    { database := ⟨[⟨⟨"scales",
        [{ name := "id", declared := "INTEGER", primaryKey := true, descending },
          { name := "shown", declared := "REAL" }], false⟩, []⟩], []⟩ }

/-- What comes of an insert of one scale: the report, and the rows that are stored then. -/
def weighed (descending : Bool) (values : RowValues) :
    Except Error InsertReport × List (List StoredRow) :=
  let outcome := (Handle.insert "scales" (.single values)).outcome (scalesHandle descending)
  (outcome.1, outcome.2.store.database.tables.map fun t => t.rows)

/-- What is no number is held as null in a column of reals. -/
theorem nan_is_held_as_null_scales : weighed false (.ofList [("shown", .double .nan)]) =
    (.ok ⟨some 1, 1⟩, [[⟨1, [.integer 1, .null]⟩]]) := by
  decide +kernel

-- a key in descending order does not number the rows, and something else is reported
example : weighed true (.ofList [("id", .int 77)]) =
    (.ok ⟨some 1, 1⟩, [[⟨1, [.integer 77, .null]⟩]]) := by
  decide +kernel

end TableAccess
