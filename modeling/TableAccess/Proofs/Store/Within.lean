import TableAccess.Proofs.Store.Reading

/-!
# Inside a transaction

A connection that begins a transaction leaves the store as it was for everybody else, until it
commits or rolls back. Between the two it may have come to another content; then nobody else was
the writer when it began, and a rollback brings back the content from that moment.
-/

namespace TableAccess

open Attempt (Ends)

/-- A connection without an open transaction, which is not the writer either. -/
structure Store.Free (s : Store) (c : Nat) : Prop where
  closed : ∀ t ∈ s.transactions, t.connection ≠ c
  elsewhere : ∀ held ∈ s.holder, held.1 ≠ c

/-- A store in which a connection has a transaction open that it began on an earlier store, and
has come to some content. -/
structure Within (outside : Store) (c : Nat) (x : Content) (s : Store) : Prop where
  database : s.database = x.database
  transactions : ∃ own : Transaction, s.transactions = outside.transactions ++ [own] ∧
    own.connection = c ∧ own.owed = x.owed
  holder : (s.holder = outside.holder ∧ x.database = outside.database) ∨
    (outside.holder = none ∧ s.holder = some (c, outside.database))

/-- A store that is as an earlier one was, but for its content. -/
structure Since (outside : Store) (db : Database) (s : Store) : Prop where
  database : s.database = db
  transactions : s.transactions = outside.transactions
  holder : s.holder = outside.holder

namespace Store

variable {s t : Store} {c : Nat}

theorem Free.isOpen (free : s.Free c) : s.isOpen c = false := by
  unfold Store.isOpen Store.transaction?
  rw [Option.isSome_eq_false_iff, Option.isNone_iff_eq_none, List.find?_eq_none]
  intro t member found
  exact free.closed t member (eq_of_beq found)

theorem isOpen_of_mem {own : Transaction} (member : own ∈ s.transactions)
    (mine : own.connection = c) : s.isOpen c = true := by
  unfold Store.isOpen Store.transaction?
  rw [List.find?_isSome]
  exact ⟨own, member, beq_iff_eq.mpr mine⟩

theorem writtenElsewhere_iff :
    s.writtenElsewhere c = true ↔ ∃ held, s.holder = some held ∧ held.1 ≠ c := by
  unfold writtenElsewhere holder
  cases s.writer with
  | none => simp
  | some w => simp

theorem holder_makeWriter (s : Store) (c : Nat) :
    (s.makeWriter c).holder = some (s.holder.getD (c, s.database)) := by
  rw [makeWriter_eq]
  unfold holder
  cases s.writer with
  | none => rfl
  | some w => rfl

/-- Without a transaction nothing is entered, and it is only seen whether that is allowed. -/
theorem enterWriting_closed (closed : s.isOpen c = false) : (enterWriting c).Ends s
    (fun _ next => next = s ∧ s.writtenElsewhere c = false) fun _ next => next = s := by
  unfold enterWriting
  by_cases taken : s.writtenElsewhere c
  · exact .of_eq_error (by rw [Attempt.outcome_of, if_pos taken]) rfl
  · refine .of_eq_ok (v := ()) ?_ ⟨rfl, by simpa using taken⟩
    rw [Attempt.outcome_of, if_neg taken, if_neg (by simp [closed])]

end Store

namespace Since

variable {outside s t : Store} {c : Nat} {db : Database}

theorem refl (s : Store) : Since s s.database s := ⟨rfl, rfl, rfl⟩

theorem free (since : Since outside db s) (free : outside.Free c) : s.Free c := by
  constructor
  · rw [since.transactions]
    exact free.closed
  · rw [since.holder]
    exact free.elsewhere

theorem trans {later : Database} (since : Since outside db s) (rest : Since s later t) :
    Since outside later t :=
  ⟨rest.database, rest.transactions.trans since.transactions, rest.holder.trans since.holder⟩

/-- A connection without a transaction has nothing to note. -/
theorem noted (since : Since outside db s) (free : outside.Free c) (noted : Noted c s t) :
    Since outside db t := by
  obtain ⟨note, _, transactions⟩ := noted.transactions
  refine ⟨noted.database.trans since.database, ?_, noted.holder.trans since.holder⟩
  rw [transactions, since.transactions]
  refine (List.map_congr_left fun own member => ?_).trans (List.map_id _)
  exact if_neg fun mine => free.closed own member (eq_of_beq mine)

end Since

namespace Within

variable {outside s t : Store} {c : Nat} {x y : Content}

theorem transaction? (within : Within outside c x s) (free : outside.Free c) :
    ∃ own, s.transaction? c = some own ∧ own.owed = x.owed := by
  obtain ⟨own, listed, mine, owed⟩ := within.transactions
  refine ⟨own, ?_, owed⟩
  have absent : outside.transactions.find? (fun t => t.connection == c) = none := by
    rw [List.find?_eq_none]
    intro t member found
    exact free.closed t member (eq_of_beq found)
  unfold Store.transaction?
  rw [listed, List.find?_append, absent, Option.none_or, List.find?_singleton]
  simp [mine]

theorem isOpen (within : Within outside c x s) : s.isOpen c = true := by
  obtain ⟨own, listed, mine, _⟩ := within.transactions
  exact Store.isOpen_of_mem (by simp [listed]) mine

theorem owed (within : Within outside c x s) (free : outside.Free c) : s.owed c = x.owed := by
  obtain ⟨own, found, owed⟩ := within.transaction? free
  rw [Store.owed, found, ← owed]
  rfl

theorem noted (within : Within outside c x s) (free : outside.Free c) (noted : Noted c s t) :
    Within outside c x t := by
  obtain ⟨own, listed, mine, owed⟩ := within.transactions
  obtain ⟨note, kept, transactions⟩ := noted.transactions
  refine ⟨noted.database.trans within.database, ⟨note own, ?_, ?_, ?_⟩, ?_⟩
  · have others : outside.transactions.map
        (fun own => if own.connection == c then note own else own) = outside.transactions := by
      refine (List.map_congr_left fun own member => ?_).trans (List.map_id _)
      exact if_neg fun mine => free.closed own member (eq_of_beq mine)
    rw [transactions, listed, List.map_append, others, List.map_singleton, if_pos (by simp [mine])]
  · rw [(kept own).1, mine]
  · rw [(kept own).2, owed]
  · rw [noted.holder]
    exact within.holder

/-- The only writer may have changed the content. -/
structure Owning (outside : Store) (c : Nat) (x : Content) (s : Store) : Prop
    extends Within outside c x s where
  vacant : outside.holder = none
  owner : s.holder = some (c, outside.database)

theorem Owning.noted (owning : Owning outside c x s) (free : outside.Free c)
    (noted : Noted c s t) : Owning outside c x t :=
  ⟨owning.toWithin.noted free noted, owning.vacant, noted.holder.trans owning.owner⟩

theorem makeWriter (within : Within outside c x s) (free : outside.Free c)
    (own : s.writtenElsewhere c = false) : Owning outside c x (s.makeWriter c) := by
  have activated : Within outside c x (s.activate c) := within.noted free (.activate c s)
  have content : (s.makeWriter c).database = (s.activate c).database ∧
      (s.makeWriter c).transactions = (s.activate c).transactions := by
    rw [Store.makeWriter_eq]
    exact ⟨rfl, rfl⟩
  have holder := s.holder_makeWriter c
  -- had anybody held the store from outside, the connection could not become the writer
  have vacant : outside.holder = none := by
    rcases within.holder with ⟨same, _⟩ | ⟨vacant, _⟩
    · cases held : outside.holder with
      | none => rfl
      | some h =>
          have taken := Store.writtenElsewhere_iff.mpr ⟨h, same.trans held, free.elsewhere h held⟩
          rw [own] at taken
          cases taken
    · exact vacant
  have owner : (s.makeWriter c).holder = some (c, outside.database) := by
    rcases within.holder with ⟨same, untouched⟩ | ⟨_, mine⟩
    · rw [holder, same, vacant, within.database, untouched]
      rfl
    · rw [holder, mine]
      rfl
  refine ⟨⟨content.1.trans activated.database, ?_, .inr ⟨vacant, owner⟩⟩, vacant, owner⟩
  rw [content.2]
  exact activated.transactions

/-- Where a store differs in nothing from an earlier one, the transaction began on that one. -/
theorem since {earlier : Store} (within : Within outside c x s)
    (same : Since earlier earlier.database outside) : Within earlier c x s := by
  obtain ⟨database, transactions, holder⟩ := within
  rw [same.transactions] at transactions
  rw [same.holder, same.database] at holder
  exact ⟨database, transactions, holder⟩

end Within

/-! ## Beginning and ending -/

namespace Store

variable {outside s : Store} {c : Nat} {db : Database} {x : Content}

theorem openTransaction_within (since : Since outside outside.database s) :
    Within outside c { database := outside.database }
      { s with transactions := s.transactions ++ [{ connection := c }] } := by
  refine ⟨since.database, ⟨{ connection := c }, ?_, rfl, rfl⟩, .inl ⟨since.holder, rfl⟩⟩
  rw [since.transactions]

theorem enterWriting_open (opened : s.isOpen c = true) (unwritten : s.writtenElsewhere c = false) :
    (enterWriting c).outcome s = (.ok (), s.makeWriter c) := by
  unfold enterWriting
  rw [Attempt.outcome_of, if_neg (ne_true_of_eq_false unwritten), if_pos opened]

/-- A connection with a transaction of its own enters unless another one is the writer. -/
theorem enterWriting_within (within : Within outside c x s) (free : outside.Free c) :
    (enterWriting c).Ends s (fun _ next => Within.Owning outside c x next)
      fun _ next => Within outside c x next := by
  cases unwritten : s.writtenElsewhere c with
  | true => exact .of_eq_error (by rw [enterWriting, Attempt.outcome_of, if_pos unwritten]) within
  | false =>
      exact .of_eq_ok (enterWriting_open within.isOpen unwritten)
        (within.makeWriter free unwritten)

/-- A transaction begins with the content that the store has, or not at all. -/
theorem begin_within (free : s.Free c) (mode : Mode) : (begin c mode).Ends s
    (fun _ next => Within s c { database := s.database } next)
    fun _ next => Since s s.database next := by
  unfold begin
  refine Ends.bind announce_notes ?_ fun _ _ noted => (Since.refl s).noted free noted
  rintro _ announced ⟨noted, _⟩
  have since : Since s s.database announced := (Since.refl s).noted free noted
  cases mode with
  | deferred =>
      refine .after rfl ?_
      dsimp only
      rw [(since.free free).isOpen]
      exact .of_eq_ok rfl (openTransaction_within since)
  | immediate =>
      refine (enterWriting_closed (since.free free).isOpen).bind ?_ fun _ _ same => same ▸ since
      rintro _ _ ⟨rfl, unwritten⟩
      have opened := openTransaction_within (c := c) since
      refine .after rfl ?_
      dsimp only
      rw [(since.free free).isOpen]
      -- the second time the connection is the writer, since nobody was when it looked
      refine .after rfl (.of_eq_ok (v := ()) ?_ (opened.makeWriter free unwritten).toWithin)
      exact enterWriting_open opened.isOpen unwritten

/-! ## Giving the store back -/

theorem holder_release (s : Store) (c : Nat) :
    (s.release c).holder = s.holder.filter fun held => held.1 != c := by
  unfold release holder writerWithout
  dsimp only
  cases s.writer with
  | none => rfl
  | some w =>
      by_cases mine : w.connection = c
      · simp [Option.filter, mine]
      · dsimp only
        rw [if_neg mine]
        split <;> simp [Option.filter, mine]

theorem filter_elsewhere (free : outside.Free c) :
    outside.transactions.filter (fun t => t.connection != c) = outside.transactions := by
  rw [List.filter_eq_self]
  intro t member
  simp [free.closed t member]

theorem holder_elsewhere (free : outside.Free c) :
    (outside.holder.filter fun held => held.1 != c) = outside.holder := by
  cases held : outside.holder with
  | none => rfl
  | some h => simp [Option.filter, free.elsewhere h held]

/-- Once the connection has given the store back, only the content can be another one. -/
theorem release_since (within : Within outside c x s) (free : outside.Free c) :
    Since outside x.database (s.release c) := by
  refine ⟨within.database, ?_, ?_⟩
  · obtain ⟨own, listed, mine, _⟩ := within.transactions
    unfold release
    dsimp only
    rw [listed, List.filter_append, filter_elsewhere free]
    simp [mine]
  · rw [holder_release]
    rcases within.holder with ⟨same, _⟩ | ⟨vacant, mine⟩
    · rw [same, holder_elsewhere free]
    · simp [Option.filter, mine, vacant]

/-- A commit keeps the content, and nothing is owed then; one that fails ends nothing. -/
theorem commit_since (within : Within outside c x s) (free : outside.Free c) :
    (commit c).Ends s (fun _ next => ¬ 0 < x.owed ∧ Since outside x.database next)
      fun _ next => Within outside c x next := by
  unfold commit
  refine Ends.bind announce_notes ?_ fun _ _ noted => within.noted free noted
  rintro _ announced ⟨noted, _⟩
  have within : Within outside c x announced := within.noted free noted
  refine .after rfl ?_
  dsimp only
  rw [within.isOpen, if_pos rfl]
  refine .after rfl ?_
  dsimp only
  rw [within.owed free]
  by_cases owing : 0 < x.owed
  · rw [if_pos owing]
    exact .stop rfl within
  · rw [if_neg owing]
    exact .of_eq_ok rfl ⟨owing, release_since within free⟩

theorem contentBefore_eq (s : Store) (c : Nat) : s.contentBefore c =
    (s.holder.elim s.database fun held => if held.1 = c then held.2 else s.database) := by
  unfold contentBefore holder
  cases s.writer <;> rfl

theorem contentBefore_elsewhere {holder : Option (Nat × Database)}
    (elsewhere : ∀ held ∈ holder, held.1 ≠ c) :
    (holder.elim db fun held => if held.1 = c then held.2 else db) = db := by
  cases holder with
  | none => rfl
  | some held => exact if_neg (elsewhere held rfl)

/-- Undoing a transaction brings the content back with which it began. -/
theorem undo_since (within : Within outside c x s) (free : outside.Free c) :
    Since outside outside.database (s.undo c) := by
  have released := release_since within free
  have content : s.contentBefore c = outside.database := by
    rw [contentBefore_eq]
    rcases within.holder with ⟨same, untouched⟩ | ⟨_, mine⟩
    · rw [same, within.database, untouched]
      exact contentBefore_elsewhere free.elsewhere
    · rw [mine]
      exact if_pos rfl
  have undone : Since outside outside.database
      { s.release c with database := s.contentBefore c } :=
    ⟨content, released.transactions, released.holder⟩
  unfold undo
  dsimp only
  split
  · exact undone.noted free (.remember c c _ _)
  · exact undone

/-- A connection that has nothing open can be closed without anybody noticing. -/
theorem undo_free (free : s.Free c) : Since s s.database (s.undo c) := by
  have undone : Since s s.database { s.release c with database := s.contentBefore c } := by
    refine ⟨?_, ?_, ?_⟩
    · rw [contentBefore_eq]
      exact contentBefore_elsewhere free.elsewhere
    · exact filter_elsewhere free
    · exact (holder_release s c).trans (holder_elsewhere free)
  unfold undo
  dsimp only
  split
  · exact undone.noted free (.remember c c _ _)
  · exact undone

end Store

end TableAccess
