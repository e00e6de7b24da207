import TableAccess.Proofs.Mutation.Compilation
import TableAccess.Proofs.Session.Regular
import TableAccess.Proofs.Session.Requests
import TableAccess.Proofs.Store.Discovery
import TableAccess.Proofs.Store.WholeRows

/-!
# Agreement on filters

A query of whole rows, an update and a deletion with the same filter are about the same rows of the
same table, as long as the catalog describes the tables as they are stored. A deletion takes out
just the rows that the query shows, and an update changes just these, in no other columns than
those that it sets.
-/

namespace TableAccess

open Attempt (Ends)
open Machine (Aspect Laws Shows)

/-! ## Updated rows -/

/-- A row and what an update has made of it: a row of the table again, which differs at most in
columns that keys name. -/
structure StoredTable.ChangedBy (t : StoredTable) (keys : List String) (row image : StoredRow) :
    Prop where
  fits : image.Fits t.definition
  cells : ∀ c ∈ t.definition.columns,
    (∀ key ∈ keys, ¬ Assignment.Names t.definition.describe key c.name) →
      t.cellAt image c.name = t.cellAt row c.name
  number : (∀ name ∈ t.definition.rowidAlias?,
    ∀ key ∈ keys, ¬ Assignment.Names t.definition.describe key name) → image.number = row.number

/-- A column that stands for the row number is the one that is another name for it. -/
theorem Definition.rowidAlias?_of_namesNumber {d : Definition} {name : String} (apart : d.Apart)
    (known : d.describe.hasColumn name = true) (named : d.namesNumber name = true) :
    d.rowidAlias? = some name := by
  obtain ⟨i, c, here, rfl⟩ := of_describe_hasColumn known
  have position := position?_name apart here
  obtain ⟨shown, own, found⟩ := Option.bind_eq_some_iff.mp ((namesNumber_iff position).mp named)
  obtain ⟨key, keyed, rfl⟩ := rowidAlias?_eq_some_iff.mp own
  obtain ⟨j, there⟩ := List.getElem?_of_mem keyed.mem
  cases found.symm.trans (position?_name apart there)
  cases here.symm.trans there
  exact own

/-- What is read from keys of a table's description changes no column that no key names. -/
theorem StoredTable.changedBy_of_updatedRow {t : StoredTable} {list : List (String × Value)}
    {as : List (Assignment Value)} {row image : StoredRow} (apart : t.definition.Apart)
    (fits : row.Fits t.definition)
    (read : Assignment.ofKeys t.definition.describe list = .ok as)
    (ended : t.updatedRow (as.map fun a => a.map Cell.ofValue) row = .ok image) :
    t.ChangedBy (list.map (·.1)) row image := by
  have keyed {a : Assignment Value} (listed : a ∈ as) :
      t.definition.describe.hasColumn a.column = true ∧
        ∃ key ∈ list.map (·.1), Assignment.Names t.definition.describe key a.column := by
    obtain ⟨entry, member, given⟩ := Assignment.exists_of_ofKeys read a listed
    obtain ⟨_, split, _⟩ := Assignment.of_ofKey given
    exact ⟨Table.hasColumn_of_splitKey split, entry.1, List.mem_map_of_mem member,
      Assignment.names_of_ofKey given⟩
  refine ⟨fits_of_updatedRow ended, ?_, ?_⟩
  · intro c member unnamed
    have columns : (as.map fun a => a.map Cell.ofValue).map (·.column) = as.map (·.column) :=
      Assignment.columns_map _ as
    refine cellAt_updatedRow_of_unchanged apart fits ended ?_
    rw [columns]
    refine changes_of_described apart ?_ ?_ ?_
    · exact List.forall_mem_map.mpr fun a listed => (keyed listed).1
    · exact Table.hasColumn_iff.mpr ⟨_, List.mem_map_of_mem member, rfl⟩
    · intro assigned
      obtain ⟨a, listed, same⟩ := List.mem_map.mp assigned
      obtain ⟨_, key, held, named⟩ := keyed listed
      exact unnamed key held (same ▸ named)
  · intro unnamed
    refine number_updatedRow ended (List.forall_mem_map.mpr fun a listed => ?_)
    obtain ⟨known, key, held, named⟩ := keyed listed
    refine eq_false_of_ne_true fun numbering => ?_
    exact unnamed _ (Definition.rowidAlias?_of_namesNumber apart known numbering) key held named

/-! ## Filtered changes of a database -/

namespace Database

/-- What a deletion takes out: the rows that satisfy its condition, of which it tells the number. -/
def Without (db : Database) (d : Delete) (n : Nat) (later : Database) : Prop :=
  ∃ t, db.table? d.table = some t ∧ n = (t.rows.filter (t.satisfies d.condition)).length ∧
    later = db.replaceTable { t with rows := t.rows.filter fun row => !t.satisfies d.condition row }

/-- What an update changes by some keys: the rows of a table that satisfy a condition, of which it
tells the number, in no columns but those that the keys name. -/
def Changed (db : Database) (table : String) (condition : Predicate) (keys : List String) (n : Nat)
    (later : Database) : Prop :=
  ∃ t r, ∃ image : StoredRow → StoredRow, db.table? table = some t ∧
    n = (t.rows.filter (t.satisfies condition)).length ∧
    later = db.replaceTable { t with rows := r } ∧
    r.Perm (t.rows.map fun row => if t.satisfies condition row then image row else row) ∧
    ∀ row ∈ t.rows, t.satisfies condition row = true → t.ChangedBy keys row (image row)

variable {db : Database}

theorem without_of_deletion (sound : db.Sound) {d : Delete} {n : Nat} {y : Content}
    (prepared : db.prepareDelete d = .ok ())
    (changed : (Change.delete d).outcome { database := db } = (.ok n, y)) :
    db.Without d n y.database := by
  obtain ⟨t, target⟩ := of_prepareDelete prepared
  have found := target_eq_ok_iff.mp target
  obtain ⟨counted, reached⟩ :=
    (Change.deleteWhere_ends (x := { database := db }) sound found).holds_ok changed
  exact ⟨t, found, counted, reached⟩

end Database

/-! ## A current catalog -/

/-- An update that is checked against a current snapshot. -/
theorem Database.changed_of_update {db : Database} (sound : db.Sound) {s : Snapshot}
    {plain : String → Prop} (current : s.Current plain db) {table : String} {filter : Filter}
    {described : Table} {condition : Predicate} {set : RowValues} {u : Update} {n : Nat}
    {y : Content} (resolved : s.resolve table = .ok described) (clear : plain described.name)
    (compiled : described.compile filter = .ok condition)
    (made : Update.compile s table set filter = .ok u) (prepared : db.prepareUpdate u = .ok ())
    (changed : (Change.update u).outcome { database := db } = (.ok n, y)) :
    db.Changed described.name condition set.keys n y.database := by
  obtain ⟨t', found, meant, assigned, named⟩ := Update.of_compile made
  cases resolved.symm.trans found
  cases compiled.symm.trans meant
  obtain ⟨t, target⟩ := of_prepareUpdate prepared
  rw [named] at target
  have here := target_eq_ok_iff.mp target
  cases current _ _ _ resolved clear here
  have whole : t.Sound := sound.tables t (of_table? here).1
  rw [← named] at here
  obtain ⟨counted, r, reached, _, images, perm⟩ :=
    (Change.updateWhere_ends (x := { database := db }) sound here
      (t.perm_inUpdateOrder _ _ _ _)).holds_ok changed
  refine ⟨t, r, _, named ▸ here, counted, reached, perm, ?_⟩
  exact fun row member held => StoredTable.changedBy_of_updatedRow whole.apart
    (whole.fits row member) assigned (images row member held)

namespace Handle

/-- After a reload that succeeds the catalog is current. -/
theorem reload_current {lent : List Nat} {h : Handle} (regular : h.Regular lent) :
    (reload : Attempt Handle Error Unit).Ends h
      (fun _ next => ∀ plain, next.catalog.current.Current plain next.store.database)
      fun _ _ => True := by
  have discovers : (withConnection Connection.discover : Attempt Handle Error Snapshot).Ends h
      (fun snapshot next => ∃ later,
        ((h.store.database.discover).map Snapshot.ofList = .ok snapshot ∧
          later = h.store.database) ∧ After (h.view lent) lent h later next)
      fun _ next => After (h.view lent) lent h h.store.database next := by
    refine withConnection_after regular.laws.toTransacts regular.settled fun c s fresh rest => ?_
    have keeps := ((regular.laws.discover "pragma_table_list" fresh).rest _).ends rest
    refine .mapError ((Ends.and (Store.discover_notes "pragma_table_list") keeps).mono ?_ ?_)
    · exact fun snapshot t ⟨⟨_, found⟩, kept⟩ => ⟨_, ⟨rest.1.database ▸ found, rfl⟩, kept⟩
    · exact fun _ _ ⟨_, kept⟩ => kept
  rw [reload_eq]
  refine .observing (discovers.mono ?_ fun _ _ _ => trivial)
  rintro snapshot next ⟨_, ⟨found, rfl⟩, after⟩ plain
  have same : next.store.database = h.store.database := after.store.1.database
  refine Snapshot.current_of_discover ?_ ?_ plain
  · exact same.symm ▸ regular.store.database
  · exact (same.symm ▸ found :)

/-! ## Requests with a filter -/

variable {σ : Type} [Machine σ] {v : Aspect σ} {steady plain : String → Prop} {lent : List Nat}
  {h : Handle σ} {db : Database} {table : String} {filter : Filter} {d : Delete}

/-- What was read of a table is what a deletion takes out of it, and what an update changes. -/
structure Agrees (v : Aspect σ) (lent : List Nat) (db : Database) (d : Delete) (table : String)
    (filter : Filter) (read : List Row) (seen : Handle σ) : Prop where
  shown : ∀ t, db.table? d.table = some t → t.Shown d.condition read
  delete : Makes v lent seen db (delete table filter) (Async.delete table filter) fun n later =>
    n = read.length ∧ db.Without d n later
  update (set : RowValues) : Makes v lent seen db (update table set filter)
    (Async.update table set filter) fun n later =>
      n = read.length ∧ db.Changed d.table d.condition set.keys n later

section Filtered

variable (laws : Laws v steady plain) (settled : Settled v lent db h) (whole : db.Sound)
  (accepted : Delete.compile h.catalog.current table filter = .ok d) (clear : plain d.table)

include laws settled whole accepted clear

theorem delete_makes : Makes v lent h db (delete table filter) (Async.delete table filter)
    (db.Without d) := by
  obtain ⟨described, resolved, _, named⟩ := Delete.of_compile accepted
  rw [delete_eq]
  refine withSession_makes laws.toTransacts (fun s => s.delete_awaits table filter) settled
    fun c t known rest => ?_
  refine (Session.delete_rest (s := ⟨c, h.catalog.current⟩) laws known rest ?_ filter).mono ?_
    fun _ _ kept => kept
  · intro other found
    cases resolved.symm.trans found
    exact named ▸ clear
  · rintro n next ⟨later, ⟨d', y, compiled, prepared, changed, rfl⟩, kept⟩
    cases accepted.symm.trans compiled
    exact ⟨_, Database.without_of_deletion whole prepared changed, kept⟩

variable (current : h.catalog.current.Current plain db)

include current

theorem update_makes (set : RowValues) : Makes v lent h db (update table set filter)
    (Async.update table set filter) (db.Changed d.table d.condition set.keys) := by
  obtain ⟨described, resolved, compiled, named⟩ := Delete.of_compile accepted
  rw [update_eq]
  refine withSession_makes laws.toTransacts (fun s => s.update_awaits table set filter) settled
    fun c t known rest => ?_
  refine (Session.update_rest (s := ⟨c, h.catalog.current⟩) laws known rest ?_ set filter).mono ?_
    fun _ _ kept => kept
  · intro other found
    cases resolved.symm.trans found
    exact named ▸ clear
  · rintro n next ⟨later, ⟨u, y, made, prepared, changed, rfl⟩, kept⟩
    exact ⟨_, named ▸ Database.changed_of_update whole current resolved (named ▸ clear) compiled made
      prepared changed, kept⟩

omit whole in
theorem select_makes (shows : Shows v plain) (order : Option String) (direction : Direction) :
    Makes v lent h db (select (Query.whole table filter order direction))
      (Async.select (Query.whole table filter order direction)) fun read later =>
        later = db ∧ ∀ t, db.table? d.table = some t → t.Shown d.condition read := by
  obtain ⟨described, resolved, compiled, named⟩ := Delete.of_compile accepted
  have unchanged : Returned v lent h db h := settled.after.returned laws.toLends settled
  have answers (plan : Select)
      (planned : (Query.whole table filter order direction).plan h.catalog.current = .ok plan) :
      Makes v lent h db (withSession fun s => Connection.select s.connection plan)
        (Async.withSession fun s => s.run (Connection.select s.connection plan)) fun read later =>
          later = db ∧ ∀ t, db.table? d.table = some t → t.Shown d.condition read := by
    obtain ⟨t, found, meant, complete⟩ := Query.whole_of_plan planned
    cases resolved.symm.trans found
    have target : plan.table = d.table := complete.table.trans named.symm
    have condition : plan.condition = d.condition := Except.ok.inj (meant.symm.trans compiled)
    refine withSession_makes laws.toTransacts (fun s => s.run_awaits _) settled
      fun c s known rest => .mapError ?_
    have keeps := ((laws.select plan known).rest db).ends rest
    cases here : db.table? d.table with
    | none => exact keeps.mono (fun _ _ kept => ⟨db, ⟨rfl, nofun⟩, kept⟩) fun _ _ kept => kept
    | some stored =>
        have same : described = stored.definition.describe :=
          current _ _ _ resolved (named ▸ clear) (named ▸ here)
        refine (keeps.and (shows c db s plan stored known (target ▸ clear) rest (target ▸ here)
          (same ▸ complete))).mono ?_ fun _ _ ⟨kept, _⟩ => kept
        rintro read t ⟨kept, shown⟩
        exact ⟨db, ⟨rfl, fun _ again => Option.some.inj again ▸ condition ▸ shown⟩, kept⟩
  constructor
  · rw [select_eq]
    refine .after rfl ((Ends.ofExcept _).bind ?_ fun _ _ ⟨same, _⟩ => same ▸ unchanged)
    rintro plan _ ⟨rfl, planned⟩
    exact (answers plan planned).inTime
  · intro fates
    unfold Async.select
    refine .after rfl ((Ends.ofExcept _).bind ?_ fun _ _ ⟨same, _⟩ => .inl (same ▸ unchanged))
    rintro plan _ ⟨rfl, planned⟩
    exact (answers plan planned).inVain fates

/-- A query of whole rows, a deletion and an update with the same filter mean the same rows, if the
catalog is current, the table is plain and the filter is one that a deletion accepts. Of what the
query has shown, the deletion takes out every row and no other one, and the update changes every row
and no other one, in no columns but those that its keys name; both tell how many rows were shown.
Every other row and every other table stays as it is, and so does everything if a request ends with
an error, unless it is a suspended one for which its caller has waited in vain. -/
theorem filters_agree (shows : Shows v plain) :
    Makes v lent h db (delete table filter) (Async.delete table filter) (db.Without d) ∧
      (∀ set, Makes v lent h db (update table set filter) (Async.update table set filter)
        (db.Changed d.table d.condition set.keys)) ∧
      ∀ order direction,
        Makes v lent h db (select (Query.whole table filter order direction))
            (Async.select (Query.whole table filter order direction)) fun read later =>
          later = db ∧ ∀ seen, Returned v lent h db seen →
            Agrees v lent db d table filter read seen := by
  refine ⟨delete_makes laws settled whole accepted clear,
    update_makes laws settled whole accepted clear current, fun order direction => ?_⟩
  refine (select_makes laws settled accepted clear current shows order direction).mono ?_
  rintro read later ⟨rfl, shown⟩
  refine ⟨rfl, fun seen back => ?_⟩
  have settled : Settled v lent later seen := back.toAfter.settled settled.knows
  rw [← back.catalog] at accepted current
  refine ⟨shown, (delete_makes laws settled whole accepted clear).mono ?_, fun set =>
    (update_makes laws settled whole accepted clear current set).mono ?_⟩
  · rintro n left ⟨t, found, counted, rest⟩
    exact ⟨counted.trans (shown t found).length.symm, t, found, counted, rest⟩
  · rintro n left ⟨t, r, image, found, counted, rest⟩
    exact ⟨counted.trans (shown t found).length.symm, t, r, image, found, counted, rest⟩

end Filtered

end Handle

/-! ## A shelter -/

def pets (rows : List StoredRow) : StoredTable where
  definition :=
    { name := "pets"
      columns :=
        [{ name := "id", declared := "INTEGER", primaryKey := true },
          { name := "name", declared := "TEXT" },
          { name := "age", declared := "INTEGER" }] }
  rows

def rex : StoredRow := ⟨1, [.integer 1, .text "Rex", .integer 3]⟩

def bella : StoredRow := ⟨2, [.integer 2, .text "Bella", .integer 5]⟩

def stray : StoredRow := ⟨3, [.integer 3, .null, .integer 3]⟩

/-- A handle that has discovered three pets, one of them without a name. -/
def shelterHandle : Handle where
  engine := .blocking
  settings := .ofConnection "file:shelter?mode=memory&cache=shared"
  catalog := .ofSnapshot (.ofList [(pets []).definition.describe])
  store := { database := ⟨[pets [rex, bella, stray]], []⟩ }

def namedRex : Filter := .entries [("name", .scalar (.text "Rex"))]

def rexRemoval : Delete := ⟨"pets", .condition ⟨"pets", "name", .eq, .value (.text "Rex")⟩⟩

def birthday : RowValues := .ofList [("age__inc", .int 1)]

def readingRex : Except Error (List Row) × Handle :=
  (Handle.select (Query.whole "pets" namedRex none .ascending)).outcome shelterHandle

theorem regular_shelterHandle : shelterHandle.Regular [] :=
  ⟨⟨.nil, List.forall_mem_nil _⟩, by decide, nofun, List.forall_mem_nil _,
    List.forall_mem_nil _, nofun⟩

theorem filters_agree_shelter :
    shelterHandle.catalog.current.Current (fun _ => True) shelterHandle.store.database ∧
    Delete.compile shelterHandle.catalog.current "pets" namedRex = .ok rexRemoval ∧
    readingRex.1 = .ok [⟨["id", "name", "age"], [.long 1, .text "Rex", .long 3]⟩] ∧
    (∃ next, (Handle.delete "pets" namedRex).outcome readingRex.2 = (.ok 1, next) ∧
      next.store.database = ⟨[pets [bella, stray]], []⟩) ∧
    ∃ next r image, (Handle.update "pets" birthday namedRex).outcome readingRex.2 = (.ok 1, next) ∧
      next.store.database = ⟨[pets r], []⟩ ∧ r.Perm [image, bella, stray] ∧
      (pets [rex, bella, stray]).ChangedBy ["age__inc"] rex image := by
  have regular := regular_shelterHandle
  have discovered : shelterHandle.store.database.discover =
      .ok [(pets []).definition.describe] := by
    unfold Database.discover
    dsimp only
    rw [List.mergeSort_of_pairwise (by decide)]
    rfl
  have current : shelterHandle.catalog.current.Current (fun _ => True)
      shelterHandle.store.database :=
    Snapshot.current_of_discover regular.store.database
      (congrArg (Except.map Snapshot.ofList) discovered) _
  have accepted : Delete.compile shelterHandle.catalog.current "pets" namedRex = .ok rexRemoval :=
    rfl
  have shown : readingRex.1 = .ok [⟨["id", "name", "age"], [.long 1, .text "Rex", .long 3]⟩] := by
    decide +kernel
  obtain ⟨seen, reads⟩ : ∃ seen, readingRex = (.ok [⟨["id", "name", "age"],
      [.long 1, .text "Rex", .long 3]⟩], seen) := ⟨_, Prod.ext shown rfl⟩
  have removes : ((Handle.delete "pets" namedRex).outcome readingRex.2).1 = .ok 1 := by
    decide +kernel
  have changes : ((Handle.update "pets" birthday namedRex).outcome readingRex.2).1 = .ok 1 := by
    decide +kernel
  rw [reads] at removes changes ⊢
  obtain ⟨after, removed⟩ : ∃ next, (Handle.delete "pets" namedRex).outcome seen = (.ok 1, next) :=
    ⟨_, Prod.ext removes rfl⟩
  obtain ⟨later, updated⟩ : ∃ next,
      (Handle.update "pets" birthday namedRex).outcome seen = (.ok 1, next) :=
    ⟨_, Prod.ext changes rfl⟩
  have agreement := (Handle.filters_agree regular.laws regular.settled regular.store.database
    accepted trivial current Store.aspect_shows).2.2 none .ascending
  obtain ⟨_, ⟨rfl, agrees⟩, back⟩ := agreement.of_ok reads
  have here : shelterHandle.store.database.table? rexRemoval.table =
      some (pets [rex, bella, stray]) := by decide
  refine ⟨current, accepted, rfl, ⟨after, removed, ?_⟩, ?_⟩
  · obtain ⟨_, ⟨_, t, found, _, rfl⟩, left⟩ := (agrees seen back).delete.of_ok removed
    cases here.symm.trans found
    exact left.store.1.database.trans (by decide +kernel)
  · obtain ⟨_, ⟨_, t, r, image, found, _, rfl, perm, each⟩, left⟩ :=
      ((agrees seen back).update birthday).of_ok updated
    cases here.symm.trans found
    have chosen : (pets [rex, bella, stray]).satisfies rexRemoval.condition rex = true ∧
        (pets [rex, bella, stray]).satisfies rexRemoval.condition bella = false ∧
        (pets [rex, bella, stray]).satisfies rexRemoval.condition stray = false := by
      decide +kernel
    refine ⟨later, r, image rex, updated, left.store.1.database, ?_, each rex List.mem_cons_self
      chosen.1⟩
    have rows : (pets [rex, bella, stray]).rows = [rex, bella, stray] := rfl
    simpa [rows, chosen] using perm

/-- Pets that have a column whose name is that of an increment of another one. -/
def agedPets (rows : List StoredRow) : StoredTable where
  definition :=
    { name := "pets"
      columns :=
        [{ name := "id", declared := "INTEGER", primaryKey := true },
          { name := "name", declared := "TEXT" },
          { name := "age", declared := "INTEGER" },
          { name := "age__inc", declared := "INTEGER" }] }
  rows

def agedHandle : Handle where
  engine := .blocking
  settings := .ofConnection "file:shelter?mode=memory&cache=shared"
  catalog := .ofSnapshot (.ofList [(agedPets []).definition.describe])
  store := { database := ⟨[agedPets [⟨1, [.integer 1, .text "Rex", .integer 3, .integer 0]⟩]], []⟩ }

/-- A key that is a column itself changes that column, and not the one that it would increment. A
deletion for which a suspended caller has waited in vain can be done all the same. -/
theorem filters_disagree_shelter :
    (((Handle.update "pets" birthday namedRex).outcome agedHandle).1 = .ok 1 ∧
      ((Handle.update "pets" birthday namedRex).outcome agedHandle).2.store.database =
        ⟨[agedPets [⟨1, [.integer 1, .text "Rex", .integer 3, .integer 1]⟩]], []⟩) ∧
    ((Handle.Async.delete "pets" namedRex).outcome ⟨shelterHandle, [.late]⟩).1 =
        .error (.queryTimeout 30000) ∧
      ((Handle.Async.delete "pets" namedRex).outcome
        ⟨shelterHandle, [.late]⟩).2.state.store.database = ⟨[pets [bella, stray]], []⟩ := by
  decide +kernel

end TableAccess
