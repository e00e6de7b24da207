import TableAccess.Proofs.Store.Within
import TableAccess.Proofs.Store.Writing

/-!
# Statements inside a transaction

A connection begins a transaction on a store at rest, runs statements that change a table, and
commits or rolls back. A statement does to the content of the store what it does to a database
by itself, whether the connection keeps it already or matches it now, and whatever has become
of it since.
-/

namespace TableAccess

open Attempt (Ends)

/-! ## Statements by themselves -/

/-- A statement that is matched with a database only if it can be read to its end, and that is then
refused without a place. It changes one table, whatever the case of letters in its name. -/
structure Form.Dependable (form : Form String) (table : String) (db : Database) : Prop where
  whole : ∀ name, form.plan db = .ok name → Sql.requireWhole form.sql = .ok ()
  plain : Sql.requireWhole form.sql = .ok () → FailsPlainly (form.plan db)
  same : ∀ name, form.plan db = .ok name → Text.same name table = true

def Form.alone {α : Type} (form : Form String) (change : Change α) : Change α := do
  let _ ← Attempt.of fun content => (form.plan content.database, content)
  change

theorem Form.alone_matched {α : Type} {form : Form String} {change : Change α} {x : Content}
    {name : String} (matched : form.plan x.database = .ok name) :
    (form.alone change).outcome x = change.outcome x := by
  unfold Form.alone
  rw [Attempt.outcome_bind, Attempt.outcome_of, matched]

theorem Form.alone_refused {α : Type} {form : Form String} {change : Change α} {x : Content}
    {fault : Fault} (refused : form.plan x.database = .error fault) :
    (form.alone change).outcome x = (.error fault, x) := by
  unfold Form.alone
  rw [Attempt.outcome_bind, Attempt.outcome_of, refused]

namespace Form.Matches

variable {form : Form String} {prepare : Database → Except Fault Unit} {table : String}
  {db : Database}

/-- A change that is matched and run is what its form does by itself. -/
theorem alone {α : Type} (fits : form.Matches prepare table) (change : Change α) (x : Content) :
    (form.alone change).outcome x = (do
      Attempt.of fun content => (prepare content.database, content)
      change : Change α).outcome x := by
  rw [Attempt.outcome_bind, Attempt.outcome_of]
  rcases fits.cases x.database with ⟨t, matched, _, planned⟩ | ⟨fault, unmatched, refused⟩
  · rw [Form.alone_matched planned, matched]
  · rw [Form.alone_refused refused, unmatched]

theorem dependable (fits : form.Matches prepare table)
    (whole : prepare db = .ok () → Sql.requireWhole form.sql = .ok ())
    (plain : Sql.requireWhole form.sql = .ok () → FailsPlainly (prepare db)) :
    form.Dependable table db := by
  rcases fits.cases db with ⟨t, matched, found, named⟩ | ⟨fault, unmatched, refused⟩
  · constructor
    · exact fun _ _ => whole matched
    · intro _ fault planned
      cases planned.symm.trans named
    · intro name planned
      cases planned.symm.trans named
      exact Database.same_of_target found
  · constructor
    · intro name planned
      cases planned.symm.trans refused
    · intro legible other planned
      cases planned.symm.trans refused
      exact plain legible fault unmatched
    · intro name planned
      cases planned.symm.trans refused

end Form.Matches

namespace Store

variable {others : List Transaction} {c : Nat} {before db : Database} {x : Content} {s : Store}
  {table sql : String}

/-! ## Taking the store -/

theorem enterWriting_outside (free : s.writtenElsewhere c = false) (closed : s.isOpen c = false) :
    (enterWriting c).outcome s = (.ok (), s) := by
  unfold enterWriting
  rw [Attempt.outcome_of, free, closed]
  rfl

/-- A connection that begins a transaction on a store at rest becomes its writer. -/
theorem begin_ends (clear : Clear others c table) (rest : Resting others sql db s) :
    (begin c .immediate).Ends s (fun _ next => Writing others sql c db { database := db } next)
      fun _ _ => False := by
  have counted : Resting others sql db s.counted := rest.counted
  have closed : s.counted.isOpen c = false := counted.isOpen clear
  have opened : Inside others sql c { database := db }
      { s.counted with transactions := s.counted.transactions ++ [{ connection := c }] } := by
    refine ⟨counted.database, ⟨{ connection := c }, ?_, rfl, rfl⟩, counted.legible⟩
    rw [counted.transactions]
  have free := counted.writtenElsewhere (c := c)
  unfold begin
  refine .after (announce_unlocked (rest.schemaLocked clear.toQuiet c)) ?_
  refine .after (enterWriting_outside free closed) (.after rfl ?_)
  dsimp only
  rw [closed]
  refine .after rfl (.of_eq_ok (enterWriting_open (opened.isOpen clear) ?_) ?_)
  · exact free
  · exact opened.makeWriter clear counted.writer

/-! ## Matching -/

section Statement

variable {form : Form String} (dependable : form.Dependable table x.database)
  (clear : Clear others c table) (writing : Writing others form.sql c before x s)

include dependable clear writing in
theorem takeUp_ends : (takeUp c form).Ends s
    (fun _ next => Writing others form.sql c before x next ∧ Sql.requireWhole form.sql = .ok ())
    fun fault next => Writing others form.sql c before x next ∧
      form.plan x.database = .error fault := by
  unfold takeUp
  refine .after rfl ?_
  dsimp only
  cases kept : s.kept? c form with
  | some k =>
      have same := List.find?_some kept
      have whole : Sql.requireWhole form.sql = .ok () :=
        writing.legible.memory c k (List.mem_of_find?_eq_some kept) (eq_of_beq same)
      exact .after rfl (.pure ⟨(writing.remember (writing.legible.keep whole)).counted, whole⟩)
  | none =>
      refine .after (announce_unlocked (writing.schemaLocked clear)) ?_
      have counted : Writing others form.sql c before x s.counted := writing.counted
      cases planned : form.plan x.database with
      | ok name =>
          have whole := dependable.whole name planned
          refine .after (v := name) (t := s.counted) ?_ (.after rfl (.pure ⟨?_, whole⟩))
          · rw [Attempt.outcome_of, counted.database, planned]
          · exact counted.remember (counted.legible.keep whole)
      | error fault =>
          refine .stop (e := fault) (t := s.counted) ?_ ⟨counted, rfl⟩
          rw [Attempt.outcome_of, counted.database, planned]

variable (whole : Sql.requireWhole form.sql = .ok ())

include dependable writing whole in
theorem rematch_ends : (rematch c form).Ends s
    (fun name next => Writing others form.sql c before x next ∧ form.plan x.database = .ok name)
    fun fault next => Writing others form.sql c before x next ∧
      form.plan x.database = .error fault := by
  have kept (update : Memory → Memory) : Writing others form.sql c before x (s.remember c update) :=
    writing.remember (writing.legible.remember fun _ _ _ => whole)
  cases planned : form.plan x.database with
  | ok name =>
      have matched : (rematch c form).outcome s =
          (.ok name, s.remember c (·.keep ⟨form.sql, form.columns name, false⟩)) := by
        unfold rematch
        rw [Attempt.outcome_of, writing.database, planned]
      exact .of_eq_ok matched ⟨kept _, rfl⟩
  | error fault =>
      have plain : fault.bare = fault := dependable.plain whole fault planned
      have refused : (rematch c form).outcome s =
          (.error fault, s.remember c (·.spoil form.sql)) := by
        unfold rematch
        rw [Attempt.outcome_of, writing.database, planned]
        dsimp only
        rw [plain]
      exact .of_eq_error refused ⟨kept _, rfl⟩

include dependable clear writing whole in
theorem renew_ends : (renew c form).Ends s (fun _ next => Writing others form.sql c before x next)
    fun fault next => Writing others form.sql c before x next ∧
      form.plan x.database = .error fault := by
  unfold renew
  refine .after rfl ?_
  dsimp only
  split
  · refine .after (requireSchema_unlocked (writing.schemaLocked clear)) ?_
    refine (rematch_ends dependable writing whole).bind ?_ ?_
    · exact fun _ _ matched => .pure matched.1
    · exact fun _ _ refused => refused
  · exact .pure writing

/-! ## Changing rows -/

include clear writing in
theorem takeForWriting_ends {name : String} (same : Text.same name table = true) :
    (takeForWriting c name).Ends s (fun _ next => Writing others form.sql c before x next)
      fun _ _ => False := by
  have unread : s.readElsewhere c name = false := by
    obtain ⟨own, listed, connected, _⟩ := writing.transactions
    unfold readElsewhere
    rw [listed, List.any_append, Bool.or_eq_false_iff, List.any_eq_false]
    constructor
    · intro t member found
      have held := List.contains_iff_mem.mp (Bool.and_eq_true_iff.mp found).2
      rw [clear.unread t member name held] at same
      exact Bool.false_ne_true same
    · simp [connected]
  unfold takeForWriting
  refine .after rfl ?_
  dsimp only
  rw [unread]
  refine .of_eq_ok rfl ⟨writing.updateTransaction clear writing.database ?_, writing.writer⟩
  exact fun _ connected owed => ⟨connected, owed⟩

variable {α : Type} (change : Change α)

include clear writing in
/-- A change of the content is the same change of a store that is being changed. -/
theorem changeWithin_ends : (changeWithin c change).Ends s
    (fun v next => ∃ y, change.outcome x = (.ok v, y) ∧ Writing others form.sql c before y next)
    fun fault next => ∃ y, change.outcome x = (.error fault, y) ∧
      Writing others form.sql c before y next := by
  have content : ({ database := s.database, owed := s.owed c } : Content) = x := by
    rw [writing.database, writing.owed clear]
  have changed (y : Content) : Writing others form.sql c before y
      (({ s with database := y.database } : Store).updateTransaction c
        fun t => { t with owed := y.owed }) := by
    obtain ⟨_, transactions, legible⟩ := writing.toInside
    have replaced : Inside others form.sql c { x with database := y.database }
        { s with database := y.database } := ⟨rfl, transactions, legible⟩
    refine ⟨replaced.updateTransaction clear rfl fun _ connected _ => ?_, writing.writer⟩
    exact ⟨connected, rfl⟩
  refine .onPart ?_
  rw [content]
  cases ended : change.outcome x with
  | mk result y =>
      cases result with
      | ok v => exact .of_eq_ok ended ⟨y, rfl, changed y⟩
      | error fault => exact .of_eq_error ended ⟨y, rfl, changed y⟩

include dependable clear writing whole in
theorem write_ends : (write c form id change).Ends s
    (fun v next => ∃ y, (form.alone change).outcome x = (.ok v, y) ∧
      Writing others form.sql c before y next)
    fun fault next => ∃ y, (form.alone change).outcome x = (.error fault, y) ∧
      Writing others form.sql c before y next := by
  have entered : Writing others form.sql c before x (s.makeWriter c) := writing.makeWriter clear
  unfold write
  refine .after (enterWriting_open (writing.isOpen clear) writing.writtenElsewhere) ?_
  refine (rematch_ends dependable entered whole).bind ?_ ?_
  · rintro name reached ⟨matched, planned⟩
    rw [Form.alone_matched planned]
    refine (takeForWriting_ends clear matched (dependable.same _ planned)).bind ?_ ?_
    · intro _ taken kept
      refine .after rfl ?_
      dsimp only
      rw [kept.isOpen clear]
      exact changeWithin_ends clear kept change
    · exact fun _ _ never => never.elim
  · rintro fault reached ⟨matched, refused⟩
    exact ⟨x, Form.alone_refused refused, matched⟩

include dependable clear writing whole in
theorem writeRows_ends (count : α → Nat) : (writeRows c form count change).Ends s
    (fun v next => ∃ y, (form.alone change).outcome x = (.ok v, y) ∧
      Writing others form.sql c before y next)
    fun fault next => ∃ y, (form.alone change).outcome x = (.error fault, y) ∧
      Writing others form.sql c before y next := by
  have counting {y : Content} {reached : Store}
      (held : Writing others form.sql c before y reached) (n : Nat) :
      Writing others form.sql c before y (if reached.isExpired c form then reached
        else reached.remember c fun m => { m with count := n }) := by
    split
    · exact held
    · exact held.remember (held.legible.remember (held.legible.memory c))
  unfold writeRows
  refine (renew_ends dependable clear writing whole).bind ?_ ?_
  · intro _ renewed kept
    refine .observing ((write_ends dependable clear kept whole change).mono ?_ ?_)
    · rintro v reached ⟨y, alone, held⟩
      exact .after rfl (.of_eq_ok rfl ⟨y, alone, counting held _⟩)
    · rintro fault reached ⟨y, alone, held⟩
      exact .after rfl (.of_eq_error rfl ⟨y, alone, counting held _⟩)
  · rintro fault reached ⟨kept, refused⟩
    exact ⟨x, Form.alone_refused refused, kept⟩

include dependable clear writing in
/-- A statement that is taken up and run once changes the content as it does by itself. -/
theorem runOnce_ends (count : α → Nat) :
    (do let _ ← takeUp c form; writeRows c form count change : Attempt Store Fault α).Ends s
      (fun v next => ∃ y, (form.alone change).outcome x = (.ok v, y) ∧
        Writing others form.sql c before y next)
      fun fault next => ∃ y, (form.alone change).outcome x = (.error fault, y) ∧
        Writing others form.sql c before y next := by
  refine (takeUp_ends dependable clear writing).bind ?_ ?_
  · rintro _ reached ⟨held, whole⟩
    exact writeRows_ends dependable clear held whole change count
  · rintro fault reached ⟨held, refused⟩
    exact ⟨x, Form.alone_refused refused, held⟩

end Statement

/-! ## Giving the store back -/

theorem release_rests (clear : Clear others c table) (writing : Writing others sql c before x s) :
    Resting others sql x.database (s.release c) := by
  refine ⟨writing.database, ?_, ?_, writing.legible⟩
  · obtain ⟨own, listed, connected, _⟩ := writing.transactions
    have kept : others.filter (fun t => t.connection != c) = others := by
      rw [List.filter_eq_self]
      intro t member
      simp [clear.elsewhere t member]
    unfold release
    dsimp only
    rw [listed, List.filter_append, kept]
    simp [connected]
  · unfold release writerWithout
    dsimp only
    rw [writing.writer]
    simp

/-- A transaction is committed unless it owes a deferred reference. -/
theorem commit_ends (clear : Clear others c table) (writing : Writing others sql c before x s) :
    (commit c).Ends s (fun _ next => ¬ 0 < x.owed ∧ Resting others sql x.database next)
      fun fault next => 0 < x.owed ∧ fault = .foreignKey ∧ Writing others sql c before x next := by
  have counted : Writing others sql c before x s.counted := writing.counted
  unfold commit
  refine .after (announce_unlocked (writing.schemaLocked clear)) (.after rfl ?_)
  dsimp only
  rw [counted.isOpen clear, if_pos rfl]
  refine .after rfl ?_
  dsimp only
  rw [counted.owed clear]
  by_cases owing : 0 < x.owed
  · rw [if_pos owing]
    exact .stop rfl ⟨owing, rfl, counted⟩
  · rw [if_neg owing]
    exact .of_eq_ok rfl ⟨owing, release_rests clear counted⟩

/-- Undoing a transaction brings the content back from before. -/
theorem undo_rests (clear : Clear others c table) (writing : Writing others sql c before x s) :
    Resting others sql before (s.undo c) := by
  have released := release_rests clear writing
  have content : s.contentBefore c = before := by
    unfold contentBefore
    rw [writing.writer]
    exact if_pos rfl
  have undone : Resting others sql before { s.release c with database := s.contentBefore c } :=
    ⟨content, released.transactions, released.writer, released.legible⟩
  unfold undo
  dsimp only
  split
  · exact ⟨undone.database, undone.transactions, undone.writer, undone.legible.expire⟩
  · exact undone

theorem rollback_ends (clear : Clear others c table) (writing : Writing others sql c before x s) :
    (rollback c).Ends s (fun _ next => Resting others sql before next) fun _ _ => False := by
  unfold rollback
  refine .after rfl ?_
  dsimp only
  rw [writing.isOpen clear]
  refine .after (announce_unlocked (writing.schemaLocked clear)) ?_
  exact .of_eq_ok rfl (undo_rests clear writing.counted)

/-! ## Bulk updates -/

/-- A row of a bulk update, run as a statement by itself. -/
theorem alone_updateKeyed (b : BulkUpdate) (row : RowValues) (x : Content) :
    ((bulkForm b).alone (Change.updateKeyed b row)).outcome x = (b.rowChange row).outcome x :=
  (bulkForm_matches b).alone (Change.updateKeyed b row) x

end Store

end TableAccess
