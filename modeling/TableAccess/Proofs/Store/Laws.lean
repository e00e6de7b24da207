import TableAccess.Proofs.Machine.Laws

/-!
# The store keeps the laws

Seen from connections that are not lent yet, the store is as the others have left it but for its
content. Every table of it is plain, since a definition has no means to make it anything else. A
transaction that could be begun can be undone as well: nobody else changes the set of tables then.
-/

namespace TableAccess

open Attempt (Ends Keeps)

/-- Only connections that are lent have a transaction open or are the writer. -/
structure Store.Sound (lent : List Nat) (s : Store) : Prop where
  transactions : ∀ t ∈ s.transactions, t.connection ∈ lent
  holder : ∀ held ∈ s.holder, held.1 ∈ lent

namespace Store.Sound

variable {lent : List Nat} {s outside : Store} {c : Nat} {db : Database}

theorem free (sound : s.Sound lent) (fresh : c ∉ lent) : s.Free c := by
  constructor
  · rintro t member rfl
    exact fresh (sound.transactions t member)
  · rintro held member rfl
    exact fresh (sound.holder held member)

theorem since (sound : outside.Sound lent) (since : Since outside db s) : s.Sound lent := by
  constructor
  · rw [since.transactions]
    exact sound.transactions
  · rw [since.holder]
    exact sound.holder

end Store.Sound

namespace Store

variable {lent : List Nat} {outside s t : Store} {c : Nat} {db : Database} {x : Content}

/-- What is known of stores from which some connections are lent, and kept by whatever a connection
does. -/
structure Upheld (p : List Nat → Store → Prop) : Prop where
  lend {lent : List Nat} {s : Store} (c : Nat) : p lent s → p (c :: lent) s
  settle {lent : List Nat} {s : Store} {c : Nat} : p (c :: lent) s → s.Sound lent → p lent s
  undo {lent : List Nat} {s : Store} (c : Nat) : p lent s → p lent (s.undo c)
  configure {c : Nat} {lent : List Nat} : (configure c).Keeps (p lent)
  begin {c : Nat} {lent : List Nat} (mode : Mode) : c ∈ lent → (begin c mode).Keeps (p lent)
  commit {c : Nat} {lent : List Nat} : (commit c).Keeps (p lent)
  rollback {c : Nat} {lent : List Nat} : (rollback c).Keeps (p lent)
  select {c : Nat} {lent : List Nat} (q : Select) : (select c q).Keeps (p lent)
  dump {c : Nat} {lent : List Nat} (table : String) : (dump c table).Keeps (p lent)
  discover {c : Nat} {lent : List Nat} (whole : String) : (discover c whole).Keeps (p lent)
  ping {c : Nat} {lent : List Nat} : (ping c).Keeps (p lent)
  spin {c : Nat} {lent : List Nat} : (spin c Connection.endless).Keeps (p lent)
  create {c : Nat} {lent : List Nat} (new : NewTable) : (create c new).Keeps (p lent)
  takeInsert {c : Nat} {lent : List Nat} (i : Insert) : (takeInsert c i).Keeps (p lent)
  insertRow {c : Nat} {lent : List Nat} (i : Insert) (row : List Value) :
    (insertRow c i row).Keeps (p lent)
  update {c : Nat} {lent : List Nat} (u : Update) : (update c u).Keeps (p lent)
  delete {c : Nat} {lent : List Nat} (d : Delete) : (delete c d).Keeps (p lent)
  takeBulk {c : Nat} {lent : List Nat} (b : BulkUpdate) : (takeBulk c b).Keeps (p lent)
  updateRow {c : Nat} {lent : List Nat} (b : BulkUpdate) (row : RowValues) :
    (updateRow c b row).Keeps (p lent)

theorem upheld_true : Upheld fun _ _ => True := by
  constructor <;> (intros; first | trivial | exact fun _ _ => trivial)

theorem upheld_regular : Upheld Regular where
  lend _ regular := regular.relend fun t member => List.mem_cons_of_mem _ (regular.opened t member)
  settle regular sound := regular.relend sound.transactions
  undo _ regular := regular.undo fun _ member _ => member
  configure := configure_keeps
  begin mode loaned := begin_keeps loaned mode
  commit := commit_keeps
  rollback := rollback_keeps
  select := select_keeps
  dump := dump_keeps
  discover := discover_keeps
  ping := announce_keeps
  spin := spin_keeps (by decide)
  create := create_keeps
  takeInsert := takeInsert_keeps
  insertRow := insertRow_keeps
  update := update_keeps
  delete := delete_keeps
  takeBulk := takeBulk_keeps
  updateRow := updateRow_keeps

/-- The store from connections that are not lent: apart from its content it is as it was when the
aspect began, or one of them has begun a transaction since. -/
def aspect (p : List Nat → Store → Prop) (lent : List Nat) (outside : Store) :
    Machine.Aspect Store where
  known c := c ∉ lent
  Rest db s := Since outside db s ∧ p lent s
  Within c db x s := c ∉ lent ∧ p (c :: lent) s ∧
    ∃ begun, Since outside db begun ∧ begun.schemaLocked c = false ∧ Within begun c x s

/-! ## Beginning and ending -/

/-- A transaction can only be begun while nobody else changes the set of tables. -/
theorem begin_unlocked (mode : Mode) :
    (begin c mode).Ends s (fun _ _ => s.schemaLocked c = false) fun _ _ => True := by
  have announced : (announce c).Ends s (fun _ _ => s.schemaLocked c = false) fun _ _ => True := by
    cases locked : s.schemaLocked c with
    | false => exact .of_eq_ok (announce_unlocked locked) rfl
    | true =>
        refine .after rfl ?_
        have same : s.counted.schemaLocked c = true := locked
        unfold requireSchema
        exact .of_eq_error (by rw [Attempt.outcome_of, if_pos same]) trivial
  unfold begin
  refine announced.bind ?_ fun _ _ _ => trivial
  exact fun _ t unlocked => (Ends.somehow _ t).mono (fun _ _ _ => unlocked) fun _ _ _ => trivial

/-- Of the own transaction nobody else is kept out. -/
theorem schemaLocked_within (within : Within outside c x s)
    (unlocked : outside.schemaLocked c = false) : s.schemaLocked c = false := by
  obtain ⟨own, listed, mine, _⟩ := within.transactions
  unfold schemaLocked changedElsewhere at unlocked ⊢
  rw [listed, List.any_append, unlocked]
  simp [mine]

theorem rollback_within (within : Within outside c x s) (free : outside.Free c)
    (unlocked : outside.schemaLocked c = false) :
    (rollback c).Ends s (fun _ next => Since outside outside.database next) fun _ _ => False := by
  unfold rollback
  refine .after rfl ?_
  dsimp only
  rw [within.isOpen]
  refine .after (announce_unlocked (schemaLocked_within within unlocked)) ?_
  exact .of_eq_ok rfl (undo_since (within.noted free (.counted c s)) free)

/-- Without a transaction there is nothing to undo. -/
theorem rollback_closed (closed : s.isOpen c = false) : (rollback c).outcome s = (.ok (), s) := by
  unfold rollback
  rw [Attempt.outcome_bind, Attempt.outcome_reading]
  dsimp only
  rw [closed]
  rfl

theorem commit_free (free : s.Free c) :
    (commit c).Ends s (fun _ _ => False) fun _ next => Since s s.database next := by
  unfold commit
  refine Ends.bind announce_notes ?_ fun _ _ noted => (Since.refl s).noted free noted
  rintro _ announced ⟨noted, _⟩
  have since := (Since.refl s).noted free noted
  refine .after rfl ?_
  dsimp only
  rw [(since.free free).isOpen]
  exact .stop rfl since

theorem configure_notes : (configure c).Notes c s fun _ => True :=
  requireSchema_notes.bind fun _ _ _ _ => Attempt.Notes.changing (.remember c c _ _)

theorem takeInsert_notes (i : Insert) : (takeInsert c i).Notes c s fun _ => True :=
  (takeUp_notes _).bind fun _ _ _ _ => Attempt.Notes.pure trivial

theorem takeBulk_notes (b : BulkUpdate) : (takeBulk c b).Notes c s fun _ => True :=
  (takeUp_notes _).bind fun _ _ _ _ => Attempt.Notes.pure trivial

/-- Without a transaction a table is created at once. -/
theorem create_free (free : s.Free c) (new : NewTable) :
    (create c new).Ends s (fun _ next => ∃ db, Since s db next)
      fun _ next => ∃ db, Since s db next := by
  have since {t : Store} (noted : Noted c s t) : Since s s.database t :=
    (Since.refl s).noted free noted
  unfold create
  refine Ends.bind (takeUp_notes _) ?_ fun _ _ noted => ⟨_, since noted⟩
  rintro _ taken ⟨first, _⟩
  refine Ends.bind (renew_notes _) ?_ fun _ _ noted => ⟨_, since (first.trans noted)⟩
  rintro _ renewed ⟨noted, _⟩
  have first := since (first.trans noted)
  refine (write_free (first.free free) _ _ _).bind ?_ fun _ _ kept => ⟨_, first.trans kept⟩
  exact fun _ _ ⟨_, y, _, _, kept⟩ => .of_eq_ok rfl ⟨y.database, first.trans kept⟩

/-! ## The laws -/

variable {p : List Nat → Store → Prop}

/-- A step that only notes something leaves every state of the aspect as it is. -/
theorem aspect_spares {ε α : Type} {a : Attempt Store ε α} (sound : outside.Sound lent)
    (notes : ∀ s, a.Notes c s fun _ => True) (keeps : ∀ lent, a.Keeps (p lent))
    (known : c ∉ lent) : (aspect p lent outside).Spares c a := by
  have noted (s : Store) : Noted c s (a.outcome s).2 :=
    Ends.leaves (Ends.mono (notes s) (fun _ _ kept => kept.1) fun _ _ kept => kept)
  have free : outside.Free c := sound.free known
  constructor
  · exact fun db s rest => ⟨rest.1.noted free (noted s), keeps lent s rest.2⟩
  · rintro db x s ⟨fresh, kept, begun, since, unlocked, within⟩
    exact ⟨fresh, keeps _ s kept, begun, since, unlocked,
      within.noted (since.free free) (noted s)⟩

/-- What is known of a store while a transaction is open holds of it again when it has ended. -/
theorem aspect_rest (upheld : Upheld p) (sound : outside.Sound lent) {begun : Store}
    (before : Since outside db begun) (since : Since begun x.database t) (kept : p (c :: lent) t) :
    (aspect p lent outside).Rest x.database t := by
  have whole : Since outside x.database t := before.trans since
  exact ⟨whole, upheld.settle kept (sound.since whole)⟩

theorem aspect_lends (upheld : Upheld p) (sound : outside.Sound lent) :
    Machine.Lends (aspect p lent outside) where
  unique first second := first.1.database.symm.trans second.1.database
  closed known rest := (rest.1.free (sound.free known)).isOpen
  configure known :=
    (aspect_spares sound (fun _ => configure_notes) (fun _ => upheld.configure) known).rest _
  close known rest := by
    have closed := undo_free (rest.1.free (sound.free known))
    exact ⟨rest.1.database ▸ rest.1.trans closed, upheld.undo _ rest.2⟩

theorem aspect_transacts (upheld : Upheld p) (sound : outside.Sound lent) :
    Machine.Transacts (aspect p lent outside) where
  toLends := aspect_lends upheld sound
  opened := fun ⟨_, _, _, _, _, within⟩ => within.isOpen
  begin {c db s} mode known rest := by
    have free : s.Free c := rest.1.free (sound.free known)
    have kept : (Machine.begin c mode : Attempt Store Fault Unit).Ends s
        (fun _ t => p (c :: lent) t) fun _ t => p (c :: lent) t :=
      (upheld.begin mode List.mem_cons_self).ends (upheld.lend c rest.2)
    refine (((begin_within free mode).and (begin_unlocked mode)).and kept).mono ?_ ?_
    · rintro _ t ⟨⟨within, unlocked⟩, kept⟩
      exact ⟨known, kept, s, rest.1, unlocked, rest.1.database ▸ within⟩
    · rintro _ t ⟨⟨since, _⟩, kept⟩
      exact rest.1.database ▸ aspect_rest (x := ⟨s.database, 0⟩) upheld sound rest.1 since kept
  commit := by
    rintro c db x s ⟨known, kept, begun, since, unlocked, within⟩
    have free := since.free (sound.free known)
    refine ((commit_since within free).and (upheld.commit.ends kept)).mono ?_ ?_
    · exact fun _ t ⟨⟨settled, after⟩, kept⟩ => ⟨settled, aspect_rest upheld sound since after kept⟩
    · exact fun _ t ⟨within, kept⟩ => ⟨known, kept, begun, since, unlocked, within⟩
  commit_closed {c db s} known rest := by
    have free : s.Free c := rest.1.free (sound.free known)
    refine ((commit_free free).and (upheld.commit.ends rest.2)).mono ?_ ?_
    · exact fun _ _ never => never.1
    · exact fun _ t ⟨since, kept⟩ => ⟨rest.1.database ▸ rest.1.trans since, kept⟩
  rollback := by
    rintro c db x s ⟨known, kept, begun, since, unlocked, within⟩
    have free := since.free (sound.free known)
    refine ((rollback_within within free unlocked).and (upheld.rollback.ends kept)).mono ?_ ?_
    · rintro _ t ⟨after, kept⟩
      exact since.database ▸ aspect_rest (x := ⟨begun.database, 0⟩) upheld sound since after kept
    · exact fun _ _ never => never.1
  rollback_closed known rest := rollback_closed (rest.1.free (sound.free known)).isOpen
  interrupt := by
    rintro c db x s ⟨known, kept, begun, since, unlocked, within⟩
    have after := undo_since within (since.free (sound.free known))
    exact since.database ▸ aspect_rest (x := ⟨begun.database, 0⟩) upheld sound since after
      (upheld.undo c kept)
  interrupt_closed known rest := (aspect_lends upheld sound).close known rest

/-- A statement inside a transaction, by what it makes of the content. -/
theorem aspect_within {α : Type} {a : Attempt Store Fault α} {q : α → Content → Store → Prop}
    {error : Fault → Content → Prop} (sound : outside.Sound lent) (keeps : a.Keeps (p (c :: lent)))
    (ends : ∀ begun s, begun.Free c → Within begun c x s → a.Ends s
      (fun v t => ∃ y, q v y t ∧ Within begun c y t)
      fun fault t => ∃ y, error fault y ∧ Within begun c y t)
    (within : (aspect p lent outside).Within c db x s) :
    a.Ends s (fun v t => ∃ y, q v y t ∧ (aspect p lent outside).Within c db y t)
      fun fault t => ∃ y, error fault y ∧ (aspect p lent outside).Within c db y t := by
  obtain ⟨known, kept, begun, since, unlocked, within⟩ := within
  refine ((ends begun s (since.free (sound.free known)) within).and (keeps.ends kept)).mono ?_ ?_
  · rintro v t ⟨⟨y, holds, held⟩, kept⟩
    exact ⟨y, holds, known, kept, begun, since, unlocked, held⟩
  · rintro fault t ⟨⟨y, holds, held⟩, kept⟩
    exact ⟨y, holds, known, kept, begun, since, unlocked, held⟩

theorem inside_of_ends {σ α : Type} {v : Machine.Aspect σ} {a : Attempt σ Fault α} {s : σ}
    {value : α → Content → σ → Prop} {error : Fault → Content → Prop}
    (ends : a.Ends s (fun w t => ∃ y, value w y t ∧ v.Within c db y t)
      fun fault t => ∃ y, error fault y ∧ v.Within c db y t) :
    a.Ends s (fun _ t => v.Inside c db t) fun _ t => v.Inside c db t :=
  ends.mono (fun _ _ ⟨y, _, held⟩ => ⟨y, held⟩) fun _ _ ⟨y, _, held⟩ => ⟨y, held⟩

theorem aspect_insertRow (upheld : Upheld p) (sound : outside.Sound lent) (i : Insert)
    (row : List Value) (within : (aspect p lent outside).Within c db x s) :
    (insertRow c i row).Ends s
      (fun _ t => ∃ y, (∃ number, (i.rowChange row).outcome x = (.ok number, y) ∧
        ∀ stored, x.database.table? i.table = some stored →
          stored.definition.withoutRowid = false → (t.memory c).number = number) ∧
        (aspect p lent outside).Within c db y t)
      fun fault t => ∃ y, (y = x ∨ (i.rowChange row).outcome x = (.error fault, y)) ∧
        (aspect p lent outside).Within c db y t := by
  refine aspect_within (q := fun _ y t => ∃ number, (i.rowChange row).outcome x = (.ok number, y) ∧
    ∀ stored, x.database.table? i.table = some stored →
      stored.definition.withoutRowid = false → (t.memory c).number = number)
    sound (upheld.insertRow i row) (fun begun s free within => ?_) within
  refine (insertRow_within within free i row).mono ?_ fun _ _ kept => kept
  rintro _ t ⟨number, y, ended, held, remembered⟩
  exact ⟨y, ⟨number, ended, remembered⟩, held⟩

theorem aspect_update (upheld : Upheld p) (sound : outside.Sound lent) (u : Update)
    (within : (aspect p lent outside).Within c db x s) : (update c u).Ends s
      (fun n t => ∃ y, (x.database.prepareUpdate u = .ok () ∧
        (Change.update u).outcome x = (.ok n, y)) ∧ (aspect p lent outside).Within c db y t)
      fun _ t => ∃ y, y.database = x.database ∧ (aspect p lent outside).Within c db y t := by
  refine aspect_within (q := fun n y _ => x.database.prepareUpdate u = .ok () ∧
    (Change.update u).outcome x = (.ok n, y)) sound (upheld.update u)
    (fun begun s free within => ?_) within
  refine (update_within within free u).mono ?_ fun _ _ kept => kept
  exact fun n t ⟨y, prepared, changed, held⟩ => ⟨y, ⟨prepared, changed⟩, held⟩

theorem aspect_delete (upheld : Upheld p) (sound : outside.Sound lent) (d : Delete)
    (within : (aspect p lent outside).Within c db x s) : (delete c d).Ends s
      (fun n t => ∃ y, (x.database.prepareDelete d = .ok () ∧
        (Change.delete d).outcome x = (.ok n, y)) ∧ (aspect p lent outside).Within c db y t)
      fun _ t => ∃ y, y.database = x.database ∧ (aspect p lent outside).Within c db y t := by
  refine aspect_within (q := fun n y _ => x.database.prepareDelete d = .ok () ∧
    (Change.delete d).outcome x = (.ok n, y)) sound (upheld.delete d)
    (fun begun s free within => ?_) within
  refine (delete_within within free d).mono ?_ fun _ _ kept => kept
  exact fun n t ⟨y, prepared, changed, held⟩ => ⟨y, ⟨prepared, changed⟩, held⟩

theorem aspect_updateRow (upheld : Upheld p) (sound : outside.Sound lent) (b : BulkUpdate)
    (row : RowValues) (within : (aspect p lent outside).Within c db x s) :
    (updateRow c b row).Ends s
      (fun n t => ∃ y, (b.rowChange row).outcome x = (.ok n, y) ∧
        (aspect p lent outside).Within c db y t)
      fun fault t => ∃ y, (y = x ∨ (b.rowChange row).outcome x = (.error fault, y)) ∧
        (aspect p lent outside).Within c db y t :=
  aspect_within (q := fun n y _ => (b.rowChange row).outcome x = (.ok n, y)) sound
    (upheld.updateRow b row) (fun _ _ free within => updateRow_within within free b row) within

/-- The store keeps the laws, and all of its tables are plain. -/
theorem aspect_laws (upheld : Upheld p) (sound : outside.Sound lent) :
    Machine.Laws (aspect p lent outside) (fun _ => True) fun _ => True where
  toTransacts := aspect_transacts upheld sound
  steady_of_plain := id
  select q := aspect_spares sound (fun _ => select_notes q) fun _ => upheld.select q
  dump table := aspect_spares sound (fun _ => dump_notes table) fun _ => upheld.dump table
  discover whole := aspect_spares sound
    (fun _ => (discover_notes whole).mono fun _ _ => trivial) fun _ => upheld.discover whole
  ping := aspect_spares sound (fun _ => announce_notes) fun _ => upheld.ping
  spin := aspect_spares sound (fun _ => spin_notes _) fun _ => upheld.spin
  takeInsert i := aspect_spares sound (fun _ => takeInsert_notes i) fun _ => upheld.takeInsert i
  takeBulk b := aspect_spares sound (fun _ => takeBulk_notes b) fun _ => upheld.takeBulk b
  create_idle {c} new known := .of_ends fun s ⟨db, rest⟩ => by
    have free : s.Free c := rest.1.free (sound.free known)
    have since (t : Store) (kept : ∃ db, Since s db t) (still : p lent t) :
        ∃ db, (aspect p lent outside).Rest db t := by
      obtain ⟨later, after⟩ := kept
      exact ⟨later, rest.1.trans after, still⟩
    exact ((create_free free new).and ((upheld.create new).ends rest.2)).mono
      (fun _ t ⟨kept, still⟩ => since t kept still) fun _ t ⟨kept, still⟩ => since t kept still
  create {_ _ x _} new within := aspect_within
    (q := fun _ y _ => (Change.create new).outcome x = (.ok (), y)) sound (upheld.create new)
    (fun _ _ free within => create_within within free new) within
  insertRow_steady row _ := .of_ends fun _ ⟨_, within⟩ =>
    inside_of_ends (aspect_insertRow upheld sound _ row within)
  update_steady _ := .of_ends fun _ ⟨_, within⟩ =>
    inside_of_ends (aspect_update upheld sound _ within)
  delete_steady _ := .of_ends fun _ ⟨_, within⟩ =>
    inside_of_ends (aspect_delete upheld sound _ within)
  updateRow_steady row _ := .of_ends fun _ ⟨_, within⟩ =>
    inside_of_ends (aspect_updateRow upheld sound _ row within)
  insertRow row _ within := (aspect_insertRow upheld sound _ row within).mono
    (fun _ _ ⟨y, ⟨number, ended, told⟩, held⟩ => ⟨number, y, ended, held, told⟩)
    fun _ _ kept => kept
  insertRow_alone {c db s i} row _ known rest := by
    have free : s.Free c := rest.1.free (sound.free known)
    refine ((insertRow_free free i row).and ((upheld.insertRow i row).ends rest.2)).mono ?_ ?_
    · rintro _ t ⟨⟨number, y, ended, since, told⟩, kept⟩
      rw [rest.1.database] at ended told
      exact ⟨number, y, ended, ⟨rest.1.trans since, kept⟩, told⟩
    · exact fun _ t ⟨since, kept⟩ => ⟨rest.1.database ▸ rest.1.trans since, kept⟩
  update _ within := (aspect_update upheld sound _ within).mono
    (fun _ _ ⟨y, ⟨prepared, changed⟩, held⟩ => ⟨y, prepared, changed, held⟩) fun _ _ kept => kept
  delete _ within := (aspect_delete upheld sound _ within).mono
    (fun _ _ ⟨y, ⟨prepared, changed⟩, held⟩ => ⟨y, prepared, changed, held⟩) fun _ _ kept => kept
  updateRow row _ within := aspect_updateRow upheld sound _ row within

/-- On a regular store a query of whole rows shows the rows of its table. -/
theorem aspect_shows : Machine.Shows (aspect Regular lent outside) fun _ => True := by
  intro c db s q stored _ _ rest found whole
  refine Ends.mono (select_whole rest.2 c) ?_ fun _ _ _ => trivial
  exact fun rows _ kept => kept.2 stored (rest.1.database.symm ▸ found) whole

end Store

end TableAccess
