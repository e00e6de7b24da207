import TableAccess.Proofs.Store.Alike
import TableAccess.Proofs.Store.Effects

/-!
# Statements on stores that look alike

Every statement of a connection that has a store to itself comes to the same on stores that look
alike. A statement that fits the content is matched with the same plan, whether or not it had to be
matched again before; one that does not fit is refused in the same words, sooner or later.
-/

namespace TableAccess

open Attempt (Respects)

namespace Form

variable {β : Type}

/-- What a connection remembers of a statement that is matched against some content. -/
def noting (form : Form β) (db : Database) (m : Memory) : Memory :=
  match form.plan db with
  | .ok plan => m.keep { sql := form.sql, columns := form.columns plan }
  | .error _ => m.spoil form.sql

/-- What a connection remembers of a change of rows that does not fit the content. Only one that
was not kept counts. -/
def balking (form : Form β) (m : Memory) : Memory :=
  match m.kept? form.sql with
  | some _ => m.spoil form.sql
  | none => { m with count := 0 }

variable {form : Form β} {db : Database} {m n : Memory} {plan : β} {fault : Fault}

theorem expire_noting (same : n.expire = m.expire) :
    (form.noting db n).expire = (form.noting db m).expire := by
  unfold noting
  cases form.plan db with
  | ok plan => exact Memory.expire_keep_congr same rfl rfl
  | error fault =>
      dsimp only
      rw [Memory.expire_spoil, Memory.expire_spoil, same]

/-- A statement that fits may be matched twice. -/
theorem noting_noting (planned : form.plan db = .ok plan) (m : Memory) :
    form.noting db (form.noting db m) = form.noting db m := by
  unfold noting
  rw [planned]
  exact Memory.keep_keep rfl

/-- Which statements are kept does not depend on which have to be matched again. -/
theorem expire_balking (same : n.expire = m.expire) :
    (form.balking n).expire = (form.balking m).expire := by
  have kept : (n.kept? form.sql).isSome = (m.kept? form.sql).isSome := by
    have both := congrArg (fun m : Memory => (m.kept? form.sql).isSome) same
    simpa only [Memory.expire_kept?, Option.isSome_map] using both
  unfold balking
  cases here : m.kept? form.sql with
  | none =>
      rw [here, Option.isSome_none, Option.isSome_eq_false_iff, Option.isNone_iff_eq_none] at kept
      rw [kept]
      exact congrArg (fun m : Memory => { m with count := 0 }) same
  | some k =>
      rw [here, Option.isSome_some, Option.isSome_iff_exists] at kept
      obtain ⟨l, there⟩ := kept
      rw [there]
      dsimp only
      rw [Memory.expire_spoil, Memory.expire_spoil, same]

theorem balking_kept {k : KeptStatement} (kept : m.kept? form.sql = some k) :
    form.balking m = m.spoil form.sql := by
  unfold balking
  rw [kept]

theorem balking_absent (absent : m.kept? form.sql = none) :
    form.balking m = { m with count := 0 } := by
  unfold balking
  rw [absent]

theorem noting_refused (refused : form.plan db = .error fault) (m : Memory) :
    form.noting db m = m.spoil form.sql := by
  unfold noting
  rw [refused]

/-- A statement that was just matched need not be matched again. -/
theorem kept?_noting (planned : form.plan db = .ok plan) (m : Memory) :
    (form.noting db m).kept? form.sql = some { sql := form.sql, columns := form.columns plan } := by
  unfold noting
  rw [planned]
  exact Memory.kept?_keep m { sql := form.sql, columns := form.columns plan }

end Form

namespace Store

variable {s t u : Store} {c : Nat} {α β : Type}

/-! ## Matching -/

theorem isExpired_eq (s : Store) (c : Nat) (form : Form β) : s.isExpired c form =
    (((s.memory c).kept? form.sql).map (·.expired)).getD false :=
  rfl

theorem rematch_outcome (s : Store) (c : Nat) (form : Form β) : (rematch c form).outcome s =
    ((form.plan s.database).mapError Fault.bare, s.remember c (form.noting s.database)) := by
  unfold rematch
  rw [Attempt.outcome_of]
  unfold Form.noting
  cases form.plan s.database <;> rfl

theorem renew_outcome (alone : Alone c s) (form : Form β) : (renew c form).outcome s =
    if s.isExpired c form then
      (((form.plan s.database).mapError Fault.bare).map fun _ => (),
        s.remember c (form.noting s.database))
    else (.ok (), s) := by
  have unlocked : (requireSchema c).outcome s = (.ok (), s) :=
    requireSchema_unlocked (alone.changedElsewhere _)
  unfold renew
  rw [Attempt.outcome_bind, Attempt.outcome_reading]
  dsimp only
  split
  · rw [Attempt.outcome_bind, unlocked]
    dsimp only
    rw [Attempt.outcome_bind, rematch_outcome]
    cases form.plan s.database <;> rfl
  · rfl

theorem takeUp_kept {k : KeptStatement} {form : Form β} (found : s.kept? c form = some k) :
    (takeUp c form).outcome s = (.ok k.columns,
      (s.remember c (·.keep { k with expired := k.expired || form.rebinds })).counted) := by
  unfold takeUp
  rw [Attempt.outcome_bind, Attempt.outcome_reading]
  dsimp only
  rw [found]
  rfl

theorem takeUp_new {form : Form β} (alone : Alone c s) (absent : s.kept? c form = none) :
    (takeUp c form).outcome s =
      match form.plan s.database with
      | .ok plan => (.ok (form.columns plan),
          s.counted.remember c (·.keep { sql := form.sql, columns := form.columns plan }))
      | .error fault => (.error fault, s.counted) := by
  have announced : (announce c).outcome s = (.ok (), s.counted) :=
    announce_unlocked (alone.changedElsewhere _)
  have content : s.counted.database = s.database := rfl
  unfold takeUp
  rw [Attempt.outcome_bind, Attempt.outcome_reading]
  dsimp only
  rw [absent]
  dsimp only
  rw [Attempt.outcome_bind, announced]
  dsimp only
  rw [Attempt.outcome_bind, Attempt.outcome_of, content]
  cases form.plan s.database <;> rfl

/-- The same statements are kept, and one that is not is matched against the same content. -/
theorem takeUp_respects (form : Form β) : (takeUp c form).Respects (Alike c) := by
  intro s t alike
  rcases alike.kept? form.sql with ⟨here, there⟩ | ⟨k, l, here, there, sql, columns⟩
  · have first := takeUp_new alike.left here
    have second := takeUp_new alike.right there
    rw [alike.database] at second
    cases planned : form.plan s.database with
    | ok plan =>
        rw [planned] at first second
        refine .of_eq first second (alike.counting.remember ?_)
        exact Memory.expire_keep_congr alike.memory rfl rfl
    | error fault =>
        rw [planned] at first second
        exact .of_eq first second alike.counting
  · have second := takeUp_kept there
    rw [columns] at second
    refine .of_eq (takeUp_kept here) second (Alike.counting (alike.remember ?_))
    exact Memory.expire_keep_congr alike.memory sql rfl

/-! ## Entering -/

/-- A step that makes a connection that is alone ready for what comes. -/
def Enters (c : Nat) (a : Attempt Store Fault Unit) (ready : Store → Prop) : Prop :=
  ∀ s, Alone c s → ∃ u, a.outcome s = (.ok (), u) ∧ Alike c s u ∧ u.memory c = s.memory c ∧
    ∀ update, ready (u.remember c update)

theorem Enters.respects {a : Attempt Store Fault Unit} {ready : Store → Prop}
    (enters : Enters c a ready) : a.Respects (Alike c) := by
  intro s t alike
  obtain ⟨u, first, here, -⟩ := enters s alike.left
  obtain ⟨v, second, there, -⟩ := enters t alike.right
  exact .of_eq first second (alike.carry here there)

/-- An open transaction of a connection that is the writer. -/
def Poised (c : Nat) (s : Store) : Prop :=
  s.isOpen c = true → ∃ before, s.holder = some (c, before)

theorem enterReading_enters : Enters c (enterReading c) fun _ => True := by
  intro s alone
  refine ⟨s.activate c, ?_, Alike.activate alone, rfl, fun _ => trivial⟩
  unfold enterReading
  rw [Attempt.outcome_of, if_neg (by simp [alone.bars])]

theorem memory_makeWriter (s : Store) (c : Nat) : (s.makeWriter c).memory c = s.memory c := by
  rw [makeWriter_eq]
  rfl

theorem enterWriting_enters : Enters c (enterWriting c) (Poised c) := by
  intro s alone
  cases opened : s.isOpen c with
  | true =>
      refine ⟨s.makeWriter c, enterWriting_open opened alone.writtenElsewhere,
        Alike.makeWriter alone opened, memory_makeWriter s c, fun _ _ => ?_⟩
      cases held : s.holder with
      | none => exact ⟨s.database, (s.holder_makeWriter c).trans (by rw [held]; rfl)⟩
      | some mine =>
          obtain ⟨rfl, -⟩ := alone.held mine held
          exact ⟨mine.2, (s.holder_makeWriter mine.1).trans (by rw [held]; rfl)⟩
  | false =>
      refine ⟨s, enterWriting_outside alone.writtenElsewhere opened, .refl alone, rfl, ?_⟩
      intro update still
      have closed : (s.remember c update).isOpen c = s.isOpen c := rfl
      rw [closed, opened] at still
      cases still

/-! ## What is matched -/

section Matching

variable {form : Form β} {plan : β} {fault : Fault} {enter : Attempt Store Fault Unit}
  {ready : Store → Prop} (alone : Alone c s) (enters : Enters c enter ready)

theorem Alike.noting (alike : Alike c s t) (form : Form β) (db : Database) :
    Alike c (s.remember c (form.noting db)) (t.remember c (form.noting db)) :=
  alike.remember (Form.expire_noting alike.memory)

include alone in
/-- A statement that fits is renewed as if it had not expired. -/
theorem renew_fits (planned : form.plan s.database = .ok plan) :
    ∃ renewed, (renew c form).outcome s = (.ok (), renewed) ∧ Alone c renewed ∧
      renewed.database = s.database ∧ Alike c (s.remember c (form.noting s.database))
        (renewed.remember c (form.noting s.database)) := by
  have outcome := renew_outcome alone form
  rw [planned] at outcome
  split at outcome
  · refine ⟨_, outcome, alone.remember c _, rfl, ?_⟩
    have again : form.noting s.database ∘ form.noting s.database = form.noting s.database :=
      funext (Form.noting_noting planned)
    rw [remember_remember, again]
    exact .refl (alone.remember c _)
  · exact ⟨s, outcome, alone, rfl, .refl (alone.remember c _)⟩

include enters in
/-- A statement is matched once it has entered. -/
theorem rematch_entered (alone : Alone c s) (form : Form β) :
    ∃ entered, enter.outcome s = (.ok (), entered) ∧
      (rematch c form).outcome entered = ((form.plan s.database).mapError Fault.bare,
        entered.remember c (form.noting s.database)) ∧
      Alike c (s.remember c (form.noting s.database))
        (entered.remember c (form.noting s.database)) ∧
      ready (entered.remember c (form.noting s.database)) ∧
      entered.memory c = s.memory c := by
  obtain ⟨entered, outcome, alike, memory, prepared⟩ := enters s alone
  refine ⟨entered, outcome, ?_, alike.remember ?_, prepared _, memory⟩
  · rw [rematch_outcome, alike.database]
  · rw [memory]

include alone enters in
/-- A statement that fits is matched once it has entered, as if it had not been matched before. -/
theorem fits (planned : form.plan s.database = .ok plan) :
    ∃ renewed entered matched, (renew c form).outcome s = (.ok (), renewed) ∧
      enter.outcome renewed = (.ok (), entered) ∧
      (rematch c form).outcome entered = (.ok plan, matched) ∧
      Alike c (s.remember c (form.noting s.database)) matched ∧ ready matched ∧
      (matched.memory c).kept? form.sql =
        some { sql := form.sql, columns := form.columns plan } := by
  obtain ⟨renewed, first, own, content, alike⟩ := renew_fits alone planned
  obtain ⟨entered, second, third, still, prepared, -⟩ := rematch_entered enters own form
  rw [content] at third still prepared
  rw [planned] at third
  refine ⟨renewed, entered, _, first, second, third, alike.trans still, prepared, ?_⟩
  rw [memory_remember_self]
  exact Form.kept?_noting planned _

include alone enters in
/-- A statement that does not fit is refused when it is matched, which may be before it enters. -/
theorem refused (unplanned : form.plan s.database = .error fault) :
    (∃ k, (s.memory c).kept? form.sql = some k ∧ (renew c form).outcome s =
      (.error fault.bare, s.remember c (form.noting s.database))) ∨
    ∃ entered, (renew c form).outcome s = (.ok (), s) ∧ enter.outcome s = (.ok (), entered) ∧
      (rematch c form).outcome entered =
        (.error fault.bare, entered.remember c (form.noting s.database)) ∧
      Alike c (s.remember c (form.noting s.database))
        (entered.remember c (form.noting s.database)) ∧
      entered.memory c = s.memory c := by
  have outcome := renew_outcome alone form
  split at outcome
  case isTrue expired =>
    rw [unplanned] at outcome
    refine .inl ?_
    rw [isExpired_eq] at expired
    cases kept : (s.memory c).kept? form.sql with
    | none =>
        rw [kept] at expired
        cases expired
    | some k => exact ⟨k, rfl, outcome⟩
  case isFalse =>
    obtain ⟨entered, second, third, still, -, memory⟩ := rematch_entered enters alone form
    rw [unplanned] at third
    exact .inr ⟨entered, outcome, second, third, still, memory⟩

include enters in
/-- What would come after a statement that does not fit does not matter. -/
theorem refused_outcome {f : β → Attempt Store Fault α} (alone : Alone c s)
    (unplanned : form.plan s.database = .error fault) :
    ∃ u, (renew c form >>= fun _ => enter >>= fun _ => rematch c form >>= f).outcome s =
      (.error fault.bare, u) ∧ Alike c (s.remember c (form.noting s.database)) u := by
  rcases refused alone enters unplanned with
    ⟨_, _, outcome⟩ | ⟨entered, first, second, third, still, -⟩
  · refine ⟨_, ?_, .refl (alone.remember c _)⟩
    rw [Attempt.outcome_bind, outcome]
  · refine ⟨_, ?_, still⟩
    rw [Attempt.outcome_bind, first]
    dsimp only
    rw [Attempt.outcome_bind, second]
    dsimp only
    rw [Attempt.outcome_bind, third]

end Matching

/-- A statement is renewed, enters and is matched before it does something. -/
theorem matching_agrees {enter : Attempt Store Fault Unit} {ready : Store → Prop}
    (enters : Enters c enter ready) (form : Form β) {f : β → Attempt Store Fault α}
    {later : Except Fault α → Store → Store → Prop} (alike : Alike c s t)
    (rest : ∀ plan u v, Alike c u v → ready u → ready v → (f plan).AgreesOn u v later)
    (errors : ∀ fault u v, Alike c u v → later (.error fault) u v) :
    (renew c form >>= fun _ => enter >>= fun _ => rematch c form >>= f).AgreesOn s t later := by
  have noted := alike.noting form s.database
  cases planned : form.plan s.database with
  | ok plan =>
      obtain ⟨_, _, u, first, second, third, here, prepared, -⟩ := fits alike.left enters planned
      rw [← alike.database] at planned
      obtain ⟨_, _, v, first', second', third', there, poised, -⟩ := fits alike.right enters planned
      rw [alike.database] at there
      refine .known first first' (.known second second' (.known third third' ?_))
      exact rest plan u v (noted.carry here there) prepared poised
  | error fault =>
      obtain ⟨u, left, here⟩ := refused_outcome (f := f) enters alike.left planned
      rw [← alike.database] at planned
      obtain ⟨v, right, there⟩ := refused_outcome (f := f) enters alike.right planned
      rw [alike.database] at there
      exact .of_eq left right (errors _ _ _ (noted.carry here there))

/-! ## Reading -/

theorem takeForReading_respects (tables : List String) :
    (takeForReading c tables).Respects (Alike c) := by
  induction tables with
  | nil => exact .pure ()
  | cons table rest ih =>
      intro s t alike
      have free : s.changedElsewhere c table = false := alike.left.changedElsewhere table
      unfold takeForReading
      refine .reading ((alike.right.changedElsewhere table).trans free.symm) ?_
      rw [free]
      refine .known rfl rfl (.known rfl rfl (ih _ _ ?_))
      exact alike.carry (.updateTransaction alike.left fun _ => ⟨rfl, rfl⟩)
        (.updateTransaction alike.right fun _ => ⟨rfl, rfl⟩)

theorem read_respects (form : Form β) (tables : β → List String)
    (answer : Database → Except Fault α) : (read c form tables answer).Respects (Alike c) := by
  intro s t alike
  unfold read
  refine matching_agrees enterReading_enters form alike ?_ fun _ _ _ kept => kept
  intro plan u v same _ _
  refine Respects.bind (takeForReading_respects _) (fun _ => ?_) u v same
  exact .looking fun _ _ found => congrArg answer found.database

theorem query_respects (form : Form β) (tables : β → List String)
    (answer : Database → Except Fault (List Row)) :
    (query c form tables answer).Respects (Alike c) :=
  (takeUp_respects form).bind fun _ => (read_respects form tables answer).bind fun _ => .ofExcept _

/-! ## Changing -/

def changedTo (s : Store) (c : Nat) (content : Content) : Store :=
  ({ s with database := content.database } : Store).updateTransaction c fun own =>
    { own with owed := content.owed }

theorem Alone.changedTo (alone : Alone c s) (content : Content) :
    Alone c (s.changedTo c content) := by
  let note (own : Transaction) : Transaction := { own with owed := content.owed }
  have kept : ∀ own, (note own).connection = own.connection := fun _ => rfl
  exact alone.of_map kept rfl rfl

theorem debt?_changedTo (opened : s.isOpen c = true) (content : Content) :
    (s.changedTo c content).debt? c = some content.owed := by
  obtain ⟨own, found⟩ := Option.isSome_iff_exists.mp opened
  have noted : (s.changedTo c content).transaction? c =
      (s.transaction? c).map fun own => { own with owed := content.owed } :=
    transaction?_of_map (fun _ => rfl) rfl
  rw [debt?, noted, found]
  rfl

/-- A writer can still go back to where it began. -/
theorem contentBefore_changedTo (poised : Poised c s) (opened : s.isOpen c = true)
    (content : Content) : (s.changedTo c content).contentBefore c = s.contentBefore c := by
  obtain ⟨before, holder⟩ := poised opened
  have held : (s.changedTo c content).holder = s.holder := rfl
  rw [contentBefore_eq, contentBefore_eq, held, holder]
  simp

theorem Alike.changedTo (alike : Alike c s t) (first : Poised c s) (second : Poised c t)
    (opened : s.isOpen c = true) (content : Content) :
    Alike c (s.changedTo c content) (t.changedTo c content) := by
  have also : t.isOpen c = true := alike.isOpen.trans opened
  refine ⟨alike.left.changedTo content, alike.right.changedTo content, rfl, ?_, ?_, alike.memory,
    alike.statements⟩
  · rw [debt?_changedTo opened, debt?_changedTo also]
  · rw [contentBefore_changedTo first opened, contentBefore_changedTo second also, alike.before]

/-- Nothing is noted of a change outside a transaction. -/
theorem Alike.replaced (alike : Alike c s t) (closed : s.isOpen c = false) (db : Database) :
    Alike c { s with database := db } { t with database := db } := by
  have before (r : Store) (alone : Alone c r) (closed : r.isOpen c = false) :
      ({ r with database := db } : Store).contentBefore c = db := by
    unfold contentBefore
    rw [alone.writer_of_closed closed]
  refine ⟨⟨alike.left.own, alike.left.single, alike.left.held⟩,
    ⟨alike.right.own, alike.right.single, alike.right.held⟩, rfl, alike.debt, ?_, alike.memory,
    alike.statements⟩
  rw [before s alike.left closed, before t alike.right (alike.isOpen.trans closed)]

/-- What is left of two stores is alike, and the connection remembers what it did before. -/
def SameMemory (c : Nat) (s t u v : Store) : Prop :=
  Alike c u v ∧ u.memory c = s.memory c ∧ v.memory c = t.memory c

theorem changeWithin_agrees (alike : Alike c s t) (first : Poised c s) (second : Poised c t)
    (opened : s.isOpen c = true) (change : Change α) :
    (changeWithin c change).AgreesOn s t fun _ => SameMemory c s t := by
  have content : ({ database := t.database, owed := t.owed c } : Content) =
      { database := s.database, owed := s.owed c } := by
    rw [alike.database, alike.owed]
  refine .onPart ⟨by rw [content], ?_⟩
  rw [content]
  exact ⟨alike.changedTo first second opened _, rfl, rfl⟩

theorem changeAlone_agrees (alike : Alike c s t) (closed : s.isOpen c = false)
    (change : Change α) :
    (changeAlone change).AgreesOn s t fun _ => SameMemory c s t := by
  have whole : SameMemory c s t s t := ⟨alike, rfl, rfl⟩
  unfold changeAlone Attempt.AgreesOn Attempt.Agree
  rw [Attempt.outcome_of, Attempt.outcome_of, alike.database]
  cases change.outcome { database := s.database } with
  | mk result content =>
      cases result with
      | error fault => exact ⟨rfl, whole⟩
      | ok v =>
          by_cases owing : 0 < content.owed
          · simp only [if_pos owing]
            exact ⟨trivial, whole⟩
          · simp only [if_neg owing]
            exact ⟨trivial, alike.replaced closed _, rfl, rfl⟩

theorem takeForWriting_outcome (alone : Alone c s) (table : String) :
    (takeForWriting c table).outcome s =
      (.ok (), s.updateTransaction c fun own => { own with changed := table :: own.changed }) := by
  unfold takeForWriting
  rw [Attempt.outcome_bind, Attempt.outcome_reading]
  dsimp only
  rw [alone.readElsewhere]
  rfl

/-- What a statement does to a table once it is matched. -/
theorem change_agrees (alike : Alike c s t) (first : Poised c s) (second : Poised c t)
    (table : String) (change : Change α) :
    (takeForWriting c table >>= fun _ => Attempt.reading (fun s => s.isOpen c) >>= fun opened =>
      if opened then changeWithin c change else changeAlone change).AgreesOn s t
        fun _ => SameMemory c s t := by
  let taken (r : Store) : Store :=
    r.updateTransaction c fun own => { own with changed := table :: own.changed }
  have left : Alike c s (taken s) := .updateTransaction alike.left fun _ => ⟨rfl, rfl⟩
  have right : Alike c t (taken t) := .updateTransaction alike.right fun _ => ⟨rfl, rfl⟩
  have both : Alike c (taken s) (taken t) := alike.carry left right
  refine .known (takeForWriting_outcome alike.left table)
    (takeForWriting_outcome alike.right table) (.reading both.isOpen ?_)
  cases opened : (taken s).isOpen c with
  | true =>
      refine changeWithin_agrees both (fun _ => ?_) (fun _ => ?_) opened change
      · exact first (left.isOpen.symm.trans opened)
      · exact second (right.isOpen.symm.trans (both.isOpen.trans opened))
  | false => exact changeAlone_agrees both opened change

/-- A statement that is renewed and then changes a table. -/
theorem write_respects (form : Form β) (table : β → String) (change : Change α) :
    (renew c form >>= fun _ => write c form table change).Respects (Alike c) := by
  intro s t alike
  unfold write
  refine matching_agrees enterWriting_enters form alike ?_ fun _ _ _ kept => kept
  intro plan u v same here there
  exact (change_agrees same here there (table plan) change).mono fun _ _ _ kept => kept.1

/-! ## Rows -/

theorem Alike.recounting (alike : Alike c s t) (n : Nat) :
    Alike c (s.remember c fun m => { m with count := n })
      (t.remember c fun m => { m with count := n }) :=
  alike.remember (congrArg (fun m : Memory => { m with count := n }) alike.memory)

/-- A change of rows that does not fit is refused before anything is changed. -/
theorem writeRows_refused {form : Form String} {fault : Fault} (alone : Alone c s)
    (unplanned : form.plan s.database = .error fault) (count : α → Nat) (change : Change α) :
    ∃ u, (writeRows c form count change).outcome s = (.error fault.bare, u) ∧
      Alike c (s.remember c form.balking) u := by
  rcases refused alone enterWriting_enters unplanned with
    ⟨k, kept, outcome⟩ | ⟨entered, first, second, third, still, memory⟩
  · refine ⟨s.remember c (form.noting s.database), ?_, .remember (.refl alone) ?_⟩
    · unfold writeRows
      rw [Attempt.outcome_bind, outcome]
    · rw [Form.noting_refused unplanned, Form.balking_kept kept]
  · have written : (write c form id change).outcome s =
        (.error fault.bare, entered.remember c (form.noting s.database)) := by
      unfold write
      rw [Attempt.outcome_bind, second]
      dsimp only
      rw [Attempt.outcome_bind, third]
    let left := entered.remember c (form.noting s.database)
    have outcome : (writeRows c form count change).outcome s =
        (.error fault.bare, if left.isExpired c form then left
          else left.remember c fun m => { m with count := 0 }) := by
      unfold writeRows
      rw [Attempt.outcome_bind, first]
      dsimp only
      rw [Attempt.outcome_bind, Attempt.outcome_observe, written]
      rfl
    have memories : left.memory c = (s.memory c).spoil form.sql := by
      rw [memory_remember_self, memory, Form.noting_refused unplanned]
    refine ⟨_, outcome, ?_⟩
    -- a statement that was kept has expired by the refusal; one that was not is not kept now either
    cases kept : (s.memory c).kept? form.sql with
    | some k =>
        have expired : left.isExpired c form = true := by
          rw [isExpired_eq, memories, Memory.kept?_spoil kept]
          rfl
        rw [if_pos expired]
        refine Alike.trans (.remember (.refl alone) ?_) still
        rw [Form.noting_refused unplanned, Form.balking_kept kept]
    | none =>
        have unexpired : left.isExpired c form = false := by
          rw [isExpired_eq, memories, Memory.spoil_absent kept, kept]
          rfl
        have counted := still.recounting 0
        rw [remember_remember] at counted
        rw [if_neg (ne_true_of_eq_false unexpired)]
        refine Alike.trans (.remember (.refl alone) ?_) counted
        rw [Function.comp, Form.noting_refused unplanned, Memory.spoil_absent kept,
          Form.balking_absent kept]

theorem writeRows_respects (form : Form String) (count : α → Nat) (change : Change α) :
    (writeRows c form count change).Respects (Alike c) := by
  intro s t alike
  have noted := alike.noting form s.database
  cases planned : form.plan s.database with
  | ok plan =>
      obtain ⟨_, _, u, first, second, third, here, poised, kept⟩ :=
        fits alike.left enterWriting_enters planned
      rw [← alike.database] at planned
      obtain ⟨_, _, v, first', second', third', there, ready, still⟩ :=
        fits alike.right enterWriting_enters planned
      rw [alike.database] at there
      unfold writeRows
      refine .known first first' (.observing (.known second second' (.known third third'
        (change_agrees (noted.carry here there) poised ready plan change))) ?_)
      -- it was matched just now, so the rows are counted in both stores
      rintro result p q ⟨same, memory, memory'⟩
      refine .changing ⟨rfl, ?_⟩
      rw [isExpired_eq, isExpired_eq, memory, memory', kept, still]
      exact same.recounting _
  | error fault =>
      obtain ⟨u, left, here⟩ := writeRows_refused alike.left planned count change
      rw [← alike.database] at planned
      obtain ⟨v, right, there⟩ := writeRows_refused alike.right planned count change
      exact .of_eq left right (here.symm.trans ((alike.remember
        (Form.expire_balking alike.memory)).trans there))

theorem create_respects (new : NewTable) : (create c new).Respects (Alike c) := by
  unfold create
  refine (takeUp_respects _).bind fun _ => ?_
  rw [← bind_assoc]
  refine (write_respects _ _ _).bind fun _ => .reading fun s t alike => ?_
  exact congrArg (·.count) alike.memory

theorem insertRow_respects (i : Insert) (row : List Value) :
    (insertRow c i row).Respects (Alike c) := by
  unfold insertRow
  refine (writeRows_respects _ _ _).bind fun number => .changing fun s t alike => ?_
  rw [alike.database]
  split
  · split
    · exact alike
    · exact alike.remember (congrArg (fun m : Memory => { m with number }) alike.memory)
  · exact alike

theorem takeInsert_respects (i : Insert) : (takeInsert c i).Respects (Alike c) :=
  (takeUp_respects _).bind fun _ => .pure _

theorem update_respects (u : Update) : (update c u).Respects (Alike c) :=
  (takeUp_respects _).bind fun _ => writeRows_respects _ _ _

theorem delete_respects (d : Delete) : (delete c d).Respects (Alike c) :=
  (takeUp_respects _).bind fun _ => writeRows_respects _ _ _

theorem takeBulk_respects (b : BulkUpdate) : (takeBulk c b).Respects (Alike c) :=
  (takeUp_respects _).bind fun _ => .pure _

theorem updateRow_respects (b : BulkUpdate) (row : RowValues) :
    (updateRow c b row).Respects (Alike c) :=
  writeRows_respects _ _ _

/-! ## Transactions -/

theorem announce_outcome (alone : Alone c s) : (announce c).outcome s = (.ok (), s.counted) :=
  announce_unlocked (alone.changedElsewhere _)

theorem announce_respects : (announce c).Respects (Alike c) := fun _ _ alike =>
  .of_eq (announce_outcome alike.left) (announce_outcome alike.right) alike.counting

theorem discover_respects (whole : String) : (discover c whole).Respects (Alike c) :=
  (announce_respects.bind fun _ => enterReading_enters.respects).mapError.bind fun _ =>
    .looking fun _ _ alike => congrArg (fun db : Database => db.discover.map Snapshot.ofList)
      alike.database

/-- A connection that is alone has no transaction but its own. -/
theorem Alone.transactions_of_closed (alone : Alone c s) (closed : s.isOpen c = false) :
    s.transactions = [] := by
  refine List.eq_nil_iff_forall_not_mem.mpr fun own member => ?_
  have opened := isOpen_of_mem member (alone.own own member)
  rw [closed] at opened
  cases opened

theorem Alike.opened (alike : Alike c s t) (closed : s.isOpen c = false) :
    Alike c { s with transactions := s.transactions ++ [{ connection := c }] }
      { t with transactions := t.transactions ++ [{ connection := c }] } := by
  have each (r : Store) (alone : Alone c r) (closed : r.isOpen c = false) :
      let opened : Store := { r with transactions := r.transactions ++ [{ connection := c }] }
      Alone c opened ∧ opened.debt? c = some 0 ∧ opened.contentBefore c = r.database := by
    have vacant : r.writer = none := alone.writer_of_closed closed
    rw [alone.transactions_of_closed closed]
    refine ⟨⟨?_, Nat.le_refl 1, ?_⟩, ?_, ?_⟩
    · simp
    · simp [holder, vacant]
    · simp [debt?, transaction?]
    · simp [contentBefore, vacant]
  obtain ⟨left, debt, before⟩ := each s alike.left closed
  obtain ⟨right, debt', before'⟩ := each t alike.right (alike.isOpen.trans closed)
  exact ⟨left, right, alike.database, debt'.trans debt.symm,
    before'.trans (alike.database.trans before.symm), alike.memory, alike.statements⟩

/-- The end of a transaction leaves a connection that is alone without one. -/
theorem Alone.release_eq (alone : Alone c s) :
    s.release c = { s with transactions := [], writer := none } := by
  have ended : s.transactions.filter (fun t => t.connection != c) = [] := by
    refine List.filter_eq_nil_iff.mpr fun own member => ?_
    simp [alone.own own member]
  have vacant : s.writerWithout c = none := by
    unfold writerWithout
    cases writer : s.writer with
    | none => rfl
    | some w =>
        exact if_pos (alone.of_writer writer).1
  rw [release, ended, vacant]

theorem Alike.released (alike : Alike c s t) : Alike c (s.release c) (t.release c) := by
  have bare (r : Store) : Alone c { r with transactions := [], writer := none } :=
    ⟨nofun, Nat.zero_le 1, nofun⟩
  rw [alike.left.release_eq, alike.right.release_eq]
  exact ⟨bare s, bare t, alike.database, rfl, alike.database, alike.memory, alike.statements⟩

theorem Alone.isOpen_undo (alone : Alone c s) : (s.undo c).isOpen c = false := by
  have released : (s.release c).isOpen c = false := by
    rw [alone.release_eq]
    rfl
  unfold undo
  dsimp only
  split
  · exact released
  · exact released

/-- It cannot be seen whether the statements of a connection were expired when it went back. -/
theorem Alike.undone (alike : Alike c s t) : Alike c (s.undo c) (t.undo c) := by
  have each (r : Store) (alone : Alone c { r.release c with database := r.contentBefore c }) :
      Alike c { r.release c with database := r.contentBefore c } (r.undo c) := by
    unfold undo
    dsimp only
    split
    · refine .noted alone (.remember c c _ _) ?_ rfl
      rw [memory_remember_self, Memory.expire_expire]
    · exact .refl alone
  have both : Alike c { s.release c with database := s.contentBefore c }
      { t.release c with database := t.contentBefore c } := by
    have closed : (s.release c).isOpen c = false := by
      rw [alike.left.release_eq]
      rfl
    rw [alike.before]
    exact alike.released.replaced closed _
  exact (each s both.left).symm.trans (both.trans (each t both.right))

/-- A connection with an open transaction opens no other one. -/
theorem opening_respects {last : Attempt Store Fault Unit} (entered : last.Respects (Alike c)) :
    (Attempt.reading (fun s => s.isOpen c) >>= fun opened =>
      if opened then throw .transactionWithinTransaction
      else openTransaction c >>= fun _ => last).Respects (Alike c) := by
  intro s t alike
  refine .reading alike.isOpen ?_
  cases closed : s.isOpen c with
  | true => exact .throw alike
  | false => exact .changing (entered _ _ (alike.opened closed))

theorem begin_respects (mode : Mode) : (begin c mode).Respects (Alike c) := by
  unfold begin
  refine announce_respects.bind fun _ => ?_
  cases mode with
  | deferred => exact opening_respects (.pure ())
  | immediate =>
      refine enterWriting_enters.respects.bind fun _ => ?_
      exact opening_respects enterWriting_enters.respects

theorem commit_respects : (commit c).Respects (Alike c) := by
  unfold commit
  refine announce_respects.bind fun _ s t alike => .reading alike.isOpen ?_
  cases s.isOpen c with
  | false => exact .throw alike
  | true =>
      refine .reading alike.owed ?_
      by_cases owing : 0 < s.owed c
      · rw [if_pos owing]
        exact .throw alike
      · rw [if_neg owing]
        exact .changing (.pure alike.released)

theorem rollback_respects : (rollback c).Respects (Alike c) := by
  unfold rollback
  intro s t alike
  refine .reading alike.isOpen ?_
  cases s.isOpen c with
  | false => exact .pure alike
  | true =>
      refine Respects.bind announce_respects (fun _ => .changing fun _ _ => ?_) s t alike
      exact Alike.undone

end Store

end TableAccess
