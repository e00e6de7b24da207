import TableAccess.Proofs.Query.ShownColumns
import TableAccess.Proofs.Store.Changes
import TableAccess.Proofs.Store.Reading

/-!
# Regular stores

What every statement keeps of a store, whether it succeeds or not and whatever other connections
do between statements: the tables are sound, those that a rollback would bring back are sound as
well, and a query that a connection keeps is to show as many columns as its text names. Only
connections that are lent have a transaction open, and the writer is one of these.
-/

namespace TableAccess

open Attempt (Keeps)

/-- A kept statement that shows as many columns as its text names, if it is a query. -/
def KeptStatement.Faithful (k : KeptStatement) : Prop :=
  ∀ q : Select, q.statement.sql = k.sql → k.columns.length = q.projections.length

def Memory.Faithful (m : Memory) : Prop := ∀ k ∈ m.kept, k.Faithful

/-- A store with sound tables, now and before its writer began, and with faithful memories. Some
connections are lent, and others have neither a transaction open nor are they the writer. -/
structure Store.Regular (lent : List Nat) (s : Store) : Prop where
  database : s.database.Sound
  before : ∀ w ∈ s.writer, w.before.Sound
  memories : ∀ entry ∈ s.memories, entry.2.Faithful
  opened : ∀ t ∈ s.transactions, t.connection ∈ lent
  writing : ∀ w ∈ s.writer, ∃ t ∈ s.transactions, t.connection = w.connection

/-! ## Memories -/

namespace Memory.Faithful

variable {m : Memory} {k : KeptStatement}

theorem kept? {sql : String} (faithful : m.Faithful) (found : m.kept? sql = some k) :
    k.Faithful ∧ k.sql = sql := by
  have same := List.find?_some found
  exact ⟨faithful k (List.mem_of_find?_eq_some found), eq_of_beq same⟩

theorem keep (faithful : m.Faithful) (one : k.Faithful) : (m.keep k).Faithful := by
  intro other listed
  rcases List.mem_cons.mp (List.mem_of_mem_take listed) with rfl | old
  · exact one
  · exact faithful other (List.mem_filter.mp old).1

/-- That a statement has to be matched again does not count. -/
theorem keep_expired {sql : String} {expired : Bool} (faithful : m.Faithful)
    (found : m.kept? sql = some k) : (m.keep { k with expired }).Faithful := by
  have one := (faithful.kept? found).1
  exact faithful.keep fun q same => one q same

theorem spoil (faithful : m.Faithful) (sql : String) : (m.spoil sql).Faithful := by
  unfold Memory.spoil
  split
  · rename_i k found
    exact faithful.keep_expired found
  · exact faithful

theorem expire (faithful : m.Faithful) : m.expire.Faithful := by
  intro k listed
  obtain ⟨old, member, rfl⟩ := List.mem_map.mp listed
  exact fun q same => faithful old member q same

end Memory.Faithful

/-- A form whose statement shows as many columns as its text names, if it is a query. -/
def Form.Faithful {β : Type} (form : Form β) : Prop :=
  ∀ q : Select, q.statement.sql = form.sql →
    ∀ plan, (form.columns plan).length = q.projections.length

/-- The text of a query begins as no other statement does. -/
theorem Form.faithful_of_head {β : Type} {form : Form β}
    (other : form.sql.toList.head? ≠ some 'S') : form.Faithful := by
  intro q same
  exact absurd (same ▸ q.head?_sql) other

/-! ## Stores -/

namespace Store.Regular

variable {lent others : List Nat} {s t : Store} {c : Nat}

theorem of_eq (regular : s.Regular lent) (database : t.database = s.database)
    (writer : t.writer = s.writer) (memories : t.memories = s.memories)
    (transactions : t.transactions = s.transactions) : t.Regular lent := by
  refine ⟨database ▸ regular.database, writer ▸ regular.before, memories ▸ regular.memories,
    transactions ▸ regular.opened, ?_⟩
  rw [writer, transactions]
  exact regular.writing

/-- What counts of the lent connections is that all are among them that have a transaction open. -/
theorem relend (regular : s.Regular lent) (opened : ∀ t ∈ s.transactions, t.connection ∈ others) :
    s.Regular others :=
  { regular with opened }

theorem memory (regular : s.Regular lent) (c : Nat) : (s.memory c).Faithful := by
  unfold Store.memory
  cases found : s.memories.find? fun entry => entry.1 == c with
  | none => exact fun k never => nomatch never
  | some entry => exact regular.memories entry (List.mem_of_find?_eq_some found)

theorem remember (regular : s.Regular lent) {update : Memory → Memory}
    (faithful : (s.memory c).Faithful → (update (s.memory c)).Faithful) :
    (s.remember c update).Regular lent := by
  refine { regular with
    memories := List.forall_mem_cons.mpr ⟨faithful (regular.memory c), fun entry member => ?_⟩ }
  exact regular.memories entry (List.mem_filter.mp member).1

theorem withDatabase (regular : s.Regular lent) {db : Database} (sound : db.Sound) :
    ({ s with database := db } : Store).Regular lent :=
  { regular with database := sound }

/-- A transaction stays that of its connection. -/
theorem updateTransaction (regular : s.Regular lent) {update : Transaction → Transaction}
    (own : ∀ t, (update t).connection = t.connection) :
    (s.updateTransaction c update).Regular lent := by
  have kept (t : Transaction) :
      (if t.connection == c then update t else t).connection = t.connection := by
    split
    · exact own t
    · rfl
  refine { regular with
    opened := List.forall_mem_map.mpr fun t member => ?_
    writing := fun w held => ?_ }
  · exact (kept t).symm ▸ regular.opened t member
  · obtain ⟨t, member, same⟩ := regular.writing w held
    exact ⟨_, List.mem_map_of_mem member, (kept t).trans same⟩

theorem activate (regular : s.Regular lent) : (s.activate c).Regular lent :=
  regular.updateTransaction fun t => by
    split
    · rfl
    · rfl

theorem refuseWriter (regular : s.Regular lent) : (s.refuseWriter c).Regular lent := by
  have each (w : Writer) (held : (s.refuseWriter c).writer = some w) :
      w.before.Sound ∧ ∃ t ∈ s.transactions, t.connection = w.connection := by
    obtain ⟨old, before, rfl⟩ := Option.map_eq_some_iff.mp held
    have known := And.intro (regular.before old before) (regular.writing old before)
    split
    · exact known
    · exact known
  exact { regular with
    before := fun w held => (each w held).1
    writing := fun w held => (each w held).2 }

theorem makeWriter (regular : s.Regular lent) (opened : s.isOpen c = true) :
    (s.makeWriter c).Regular lent := by
  obtain ⟨t, found⟩ := Option.isSome_iff_exists.mp opened
  have own := List.find?_some found
  have written : ({ s with writer := some { connection := c, before := s.database } } :
      Store).Regular lent := by
    refine { regular with before := fun w held => ?_, writing := fun w held => ?_ }
    · cases held
      exact regular.database
    · cases held
      exact ⟨t, List.mem_of_find?_eq_some found, eq_of_beq own⟩
  unfold Store.makeWriter
  dsimp only
  split
  · exact regular.activate
  · exact written.activate

theorem openTransaction (regular : s.Regular lent) (loaned : c ∈ lent) :
    ({ s with transactions := s.transactions ++ [{ connection := c }] } : Store).Regular lent := by
  refine { regular with opened := fun t listed => ?_, writing := fun w held => ?_ }
  · rcases List.mem_append.mp listed with old | new
    · exact regular.opened t old
    · cases List.mem_singleton.mp new
      exact loaned
  · obtain ⟨t, member, same⟩ := regular.writing w held
    exact ⟨t, List.mem_append_left _ member, same⟩

/-- A transaction that ends need not be lent any more. -/
theorem release (regular : s.Regular lent) (left : ∀ d ∈ lent, d ≠ c → d ∈ others) :
    (s.release c).Regular others := by
  have each (w : Writer) (held : s.writerWithout c = some w) :
      w.before.Sound ∧ ∃ t ∈ s.transactions.filter (fun t => t.connection != c),
        t.connection = w.connection := by
    unfold writerWithout at held
    split at held
    · cases held
    · rename_i own before
      have sound := regular.before own before
      obtain ⟨t, member, same⟩ := regular.writing own before
      split at held
      · cases held
      · rename_i other
        have stays : t ∈ s.transactions.filter fun t => t.connection != c :=
          List.mem_filter.mpr ⟨member, by simpa [same] using other⟩
        split at held
        · cases held
          exact ⟨sound, t, stays, same⟩
        · cases held
          exact ⟨sound, t, stays, same⟩
  refine ⟨regular.database, fun w held => (each w held).1, regular.memories, fun t listed => ?_,
    fun w held => (each w held).2⟩
  obtain ⟨member, other⟩ := List.mem_filter.mp listed
  exact left _ (regular.opened t member) (by simpa using other)

theorem undo (regular : s.Regular lent) (left : ∀ d ∈ lent, d ≠ c → d ∈ others) :
    (s.undo c).Regular others := by
  have content : (s.contentBefore c).Sound := by
    unfold contentBefore
    split
    · rename_i w before
      split
      · exact regular.before w before
      · exact regular.database
    · exact regular.database
  have undone := (regular.release left).withDatabase content
  unfold Store.undo
  dsimp only
  split
  · exact undone.remember fun faithful => faithful.expire
  · exact undone

end Store.Regular

/-! ## Statements -/

namespace Store

variable {α β : Type} {lent : List Nat} {c : Nat} {form : Form β}

theorem requireSchema_keeps : (requireSchema c).Keeps (Regular lent) := by
  intro s regular
  unfold requireSchema
  rw [Attempt.outcome_of]
  split
  · exact regular
  · exact regular

theorem announce_keeps : (announce c).Keeps (Regular lent) :=
  .bind (.changing fun _ regular => regular.of_eq rfl rfl rfl rfl) fun _ => requireSchema_keeps

theorem enterReading_keeps : (enterReading c).Keeps (Regular lent) := by
  intro s regular
  unfold enterReading
  rw [Attempt.outcome_of]
  split
  · exact regular
  · exact regular.activate

theorem enterWriting_keeps : (enterWriting c).Keeps (Regular lent) := by
  intro s regular
  unfold enterWriting
  rw [Attempt.outcome_of]
  split
  · exact regular
  · split
    · rename_i opened
      exact regular.makeWriter opened
    · exact regular

theorem takeUp_keeps (faithful : form.Faithful) : (takeUp c form).Keeps (Regular lent) := by
  unfold takeUp
  refine .reading_bind fun s regular => ?_
  split
  · rename_i k found
    let taken := { k with expired := k.expired || form.rebinds }
    have kept : (s.remember c (·.keep taken)).Regular lent :=
      regular.remember fun memory => memory.keep_expired found
    exact kept.of_eq rfl rfl rfl rfl
  · refine Keeps.bind announce_keeps (fun _ => .bind (.looking _) fun plan => ?_) s regular
    refine .bind (.changing fun t reached => ?_) fun _ => .pure _
    refine reached.remember fun old => old.keep fun q same => ?_
    exact faithful q same plan

theorem rematch_keeps (faithful : form.Faithful) : (rematch c form).Keeps (Regular lent) := by
  intro s regular
  unfold rematch
  rw [Attempt.outcome_of]
  split
  · rename_i plan _
    dsimp only
    exact regular.remember fun old => old.keep fun q same => faithful q same plan
  · dsimp only
    exact regular.remember fun old => old.spoil form.sql

theorem renew_keeps (faithful : form.Faithful) : (renew c form).Keeps (Regular lent) := by
  unfold renew
  refine .bind (.reading _) fun expired => ?_
  split
  · exact .bind requireSchema_keeps fun _ => .bind (rematch_keeps faithful) fun _ => .pure _
  · exact .pure _

theorem takeForReading_keeps (tables : List String) :
    (takeForReading c tables).Keeps (Regular lent) := by
  induction tables with
  | nil => exact .pure _
  | cons table rest ih =>
      unfold takeForReading
      refine .bind (.reading _) fun changed => ?_
      split
      · exact .bind (.throw _) fun _ =>
          .bind (.changing fun _ held => held.updateTransaction fun _ => rfl) fun _ => ih
      · exact .bind (.changing fun _ held => held.updateTransaction fun _ => rfl) fun _ => ih

theorem read_keeps (faithful : form.Faithful) (tables : β → List String)
    (answer : Database → Except Fault α) : (read c form tables answer).Keeps (Regular lent) := by
  unfold read
  refine .bind (renew_keeps faithful) fun _ => .bind enterReading_keeps fun _ => ?_
  refine .bind (rematch_keeps faithful) fun plan => ?_
  exact .bind (takeForReading_keeps _) fun _ => .looking _

theorem query_keeps (faithful : form.Faithful) (tables : β → List String)
    (answer : Database → Except Fault (List Row)) :
    (query c form tables answer).Keeps (Regular lent) := by
  unfold query
  refine .bind (takeUp_keeps faithful) fun columns => ?_
  exact .bind (read_keeps faithful tables answer) fun rows => .ofExcept _

theorem takeForWriting_keeps (table : String) : (takeForWriting c table).Keeps (Regular lent) := by
  unfold takeForWriting
  refine .bind (.reading _) fun used => ?_
  split
  · refine .bind (.changing fun _ held => held.refuseWriter) fun _ => ?_
    exact .bind (.throw _) fun _ => .changing fun _ held => held.updateTransaction fun _ => rfl
  · exact .changing fun _ held => held.updateTransaction fun _ => rfl

theorem changeWithin_keeps {change : Change α} (sound : change.Keeps Content.Sound) :
    (changeWithin c change).Keeps (Regular lent) :=
  .onPart fun s regular =>
    have reached := sound { database := s.database, owed := s.owed c } regular.database
    (regular.withDatabase reached).updateTransaction fun _ => rfl

theorem changeAlone_keeps {change : Change α} (sound : change.Keeps Content.Sound) :
    (changeAlone change).Keeps (Regular lent) := by
  intro s regular
  have reached := sound { database := s.database } regular.database
  unfold changeAlone
  rw [Attempt.outcome_of]
  cases ended : change.outcome { database := s.database } with
  | mk result y =>
      rw [ended] at reached
      cases result with
      | error fault => exact regular
      | ok v =>
          dsimp only
          split
          · exact regular
          · exact regular.withDatabase reached

theorem write_keeps (faithful : form.Faithful) (table : β → String) {change : Change α}
    (sound : change.Keeps Content.Sound) : (write c form table change).Keeps (Regular lent) := by
  unfold write
  refine .bind enterWriting_keeps fun _ => .bind (rematch_keeps faithful) fun plan => ?_
  refine .bind (takeForWriting_keeps _) fun _ => .bind (.reading _) fun joined => ?_
  split
  · exact changeWithin_keeps sound
  · exact changeAlone_keeps sound

variable {rows : Form String}

theorem writeRows_keeps (faithful : rows.Faithful) (count : α → Nat) {change : Change α}
    (sound : change.Keeps Content.Sound) : (writeRows c rows count change).Keeps (Regular lent) := by
  unfold writeRows
  refine .bind (renew_keeps faithful) fun _ => ?_
  refine .bind (.observe (write_keeps faithful id sound)) fun outcome => ?_
  refine .bind (.changing fun _ held => ?_) fun _ => .ofExcept _
  split
  · exact held
  · exact held.remember fun old => old

/-! ## Queries and changes -/

theorem length_columnNames {q r : Select} (same : r.statement.sql = q.statement.sql)
    (plan : Sources) : (q.columnNames plan).length = r.projections.length :=
  (List.length_map _).trans (Select.length_projections_of_sql_eq same).symm

theorem select_keeps (q : Select) : (select c q).Keeps (Regular lent) :=
  query_keeps (fun _ => length_columnNames) _ _

/-- A query is to show as many columns as its text names, even if the statement was kept. -/
theorem takeUp_shows {s : Store} (regular : s.Regular lent) (faithful : form.Faithful) {q : Select}
    (text : q.statement.sql = form.sql) :
    (takeUp c form).Notes c s fun columns => columns.length = q.projections.length := by
  unfold takeUp
  refine (Attempt.Notes.reading _).bind fun kept reached _ chosen => ?_
  split
  · rename_i k
    obtain ⟨one, own⟩ := (regular.memory c).kept? chosen.symm
    refine (Attempt.Notes.changing ?_).bind fun _ _ _ _ => .pure (one q (text.trans own.symm))
    exact (Noted.remember c c reached _).trans (.counted c _)
  · refine announce_notes.bind fun _ _ _ _ => ?_
    refine (Attempt.Notes.looking form.plan).bind fun plan matched _ _ => ?_
    exact (Attempt.Notes.changing (.remember c c matched _)).bind fun _ _ _ _ =>
      .pure (faithful q text plan)

theorem select_shows {s : Store} (regular : s.Regular lent) (q : Select) :
    (select c q).Notes c s fun rows => ∃ columns found,
      columns.length = q.projections.length ∧ s.database.select q = .ok found ∧
        shown columns found = .ok rows :=
  query_notes (takeUp_shows regular (fun _ => length_columnNames) rfl) _ _

theorem dump_keeps (table : String) : (dump c table).Keeps (Regular lent) :=
  query_keeps (fun q same => absurd same (q.sql_ne_star table)) _ _

theorem head?_render {γ : Type} {word : Char} {s : String} {letters : List Char}
    (begins : s.toList = word :: letters) (fragments : List (Sql.Fragment γ)) :
    (Sql.Fragment.render (.verbatim s :: fragments)).toList.head? = some word := by
  rw [Sql.Fragment.render, String.toList_ofList, List.flatMap_cons, Sql.Fragment.text, begins]
  rfl

theorem insertForm_faithful (i : Insert) : (insertForm i).Faithful := by
  refine Form.faithful_of_head ?_
  have text : (insertForm i).sql.toList.head? = some 'I' := by
    show (Sql.Fragment.render i.fragments).toList.head? = _
    unfold Insert.fragments
    split
    · exact head?_render rfl _
    · exact head?_render rfl _
  simp [text]

theorem bulkForm_faithful (b : BulkUpdate) : (bulkForm b).Faithful := by
  refine Form.faithful_of_head ?_
  have text : (bulkForm b).sql.toList.head? = some 'U' := head?_render rfl _
  simp [text]

theorem insertRow_keeps (i : Insert) (row : List Value) :
    (insertRow c i row).Keeps (Regular lent) := by
  unfold insertRow
  refine .bind (writeRows_keeps (insertForm_faithful i) _ (Change.keeps_insert i row))
    fun number => .changing fun s regular => ?_
  split
  · split
    · exact regular
    · exact regular.remember fun old => old
  · exact regular

theorem takeInsert_keeps (i : Insert) : (takeInsert c i).Keeps (Regular lent) :=
  .bind (takeUp_keeps (insertForm_faithful i)) fun _ => .pure _

theorem update_keeps (u : Update) : (update c u).Keeps (Regular lent) := by
  unfold update
  have faithful {form : Form String} (text : form.sql = u.statement.sql) : form.Faithful := by
    have begins : u.statement.sql.toList.head? = some 'U' := head?_render rfl _
    exact Form.faithful_of_head (by simp [text, begins])
  exact .bind (takeUp_keeps (faithful rfl)) fun _ =>
    writeRows_keeps (faithful rfl) _ (Change.keeps_update u)

theorem delete_keeps (d : Delete) : (delete c d).Keeps (Regular lent) := by
  unfold delete
  have faithful {form : Form String} (text : form.sql = d.statement.sql) : form.Faithful := by
    have begins : d.statement.sql.toList.head? = some 'D' := head?_render rfl _
    exact Form.faithful_of_head (by simp [text, begins])
  exact .bind (takeUp_keeps (faithful rfl)) fun _ =>
    writeRows_keeps (faithful rfl) _ (Change.keeps_delete d)

theorem takeBulk_keeps (b : BulkUpdate) : (takeBulk c b).Keeps (Regular lent) :=
  .bind (takeUp_keeps (bulkForm_faithful b)) fun _ => .pure _

theorem updateRow_keeps (b : BulkUpdate) (row : RowValues) :
    (updateRow c b row).Keeps (Regular lent) :=
  writeRows_keeps (bulkForm_faithful b) _ (Change.keeps_updateKeyed b row)

theorem create_keeps (new : NewTable) : (create c new).Keeps (Regular lent) := by
  unfold create
  have faithful {form : Form Unit} (text : form.sql = new.text) : form.Faithful := by
    have begins : new.text.toList.head? = some 'C' := by
      cases new with
      | table d => simp [NewTable.text, Definition.text, Definition.opening]
      | view v => simp [NewTable.text]
    exact Form.faithful_of_head (by simp [text, begins])
  refine .bind (takeUp_keeps (faithful rfl)) fun _ => .bind (renew_keeps (faithful rfl)) fun _ => ?_
  exact .bind (write_keeps (faithful rfl) _ (Change.keeps_create new)) fun _ => .reading _

theorem discover_keeps (whole : String) : (discover c whole).Keeps (Regular lent) :=
  .bind (.mapError (.bind announce_keeps fun _ => enterReading_keeps)) fun _ => .looking _

theorem spin_keeps {sql : String} (other : sql.toList.head? ≠ some 'S') :
    (spin c sql).Keeps (Regular lent) :=
  .bind (takeUp_keeps (Form.faithful_of_head other)) fun _ =>
    renew_keeps (Form.faithful_of_head other)

theorem configure_keeps : (configure c).Keeps (Regular lent) :=
  .bind requireSchema_keeps fun _ => .changing fun _ regular =>
    regular.remember fun memory => memory.expire

/-! ## Transactions -/

theorem openTransaction_keeps (loaned : c ∈ lent) : (openTransaction c).Keeps (Regular lent) :=
  .changing fun _ regular => regular.openTransaction loaned

/-- A transaction begins with steps that keep what holds of a store. -/
theorem begin_keeps_of {p : Store → Prop} (announced : (announce c).Keeps p)
    (entered : (enterWriting c).Keeps p) (opened : (openTransaction c).Keeps p) (mode : Mode) :
    (begin c mode).Keeps p := by
  have opening {rest : Attempt Store Fault Unit} (keeps : rest.Keeps p) : (do
      if ← Attempt.reading fun s => s.isOpen c then throw .transactionWithinTransaction
      openTransaction c
      rest : Attempt Store Fault Unit).Keeps p := by
    refine .bind (.reading _) fun joined => ?_
    have fresh := Keeps.bind opened fun _ => keeps
    split
    · exact .bind (.throw _) fun _ => fresh
    · exact fresh
  unfold begin
  refine .bind announced fun _ => ?_
  split
  · exact .bind entered fun _ => opening entered
  · exact opening (.pure _)

theorem begin_keeps (loaned : c ∈ lent) (mode : Mode) : (begin c mode).Keeps (Regular lent) :=
  begin_keeps_of announce_keeps enterWriting_keeps (openTransaction_keeps loaned) mode

theorem commit_keeps_of {p : Store → Prop} (announced : (announce c).Keeps p)
    (released : ∀ s, p s → p (s.release c)) : (commit c).Keeps p := by
  unfold commit
  refine .bind announced fun _ => .bind (.reading _) fun joined => ?_
  have ending : (do
      if 0 < (← Attempt.reading fun s => s.owed c) then throw .foreignKey
      Attempt.changing fun s => s.release c : Attempt Store Fault Unit).Keeps p := by
    refine .bind (.reading _) fun owed => ?_
    split
    · exact .bind (.throw _) fun _ => .changing released
    · exact .changing released
  split
  · exact ending
  · exact .bind (.throw _) fun _ => ending

theorem commit_keeps : (commit c).Keeps (Regular lent) :=
  commit_keeps_of announce_keeps fun _ regular => regular.release fun _ member _ => member

theorem rollback_keeps : (rollback c).Keeps (Regular lent) := by
  unfold rollback
  refine .bind (.reading _) fun joined => ?_
  split
  · exact .bind announce_keeps fun _ =>
      .changing fun _ regular => regular.undo fun _ member _ => member
  · exact .pure _

end Store

end TableAccess
