import TableAccess.Proofs.Session.Joining
import TableAccess.Proofs.Store.Statement

/-!
# Brackets are atomic

A bracket on a store at rest either ends with what its body made of the store, or leaves the
content as it was: when the body fails, and when the transaction cannot be committed because it
owes a deferred reference.
-/

namespace TableAccess

/-- The refusal to commit a transaction that owes a deferred reference. -/
def Error.owing : Error := .ofTransaction "commit" .foreignKey

/-- A change of the content of a database in a transaction of its own, with the name by which its
faults are told. -/
def Change.bracketed {α : Type} (table : String) (change : Change α) :
    Attempt Database Error α := .of fun db =>
  match change.outcome { database := db } with
  | (.ok v, reached) =>
      if 0 < reached.owed then (.error .owing, db) else (.ok v, reached.database)
  | (.error fault, _) => (.error (.ofFault table fault), db)

namespace Change

variable {α : Type} {change : Change α} {table : String} {db : Database} {y : Content} {v : α}

theorem bracketed_eq_ok (ended : change.outcome { database := db } = (.ok v, y))
    (settled : ¬ 0 < y.owed) : (change.bracketed table).outcome db = (.ok v, y.database) := by
  unfold bracketed
  rw [Attempt.outcome_of, ended]
  exact if_neg settled

theorem bracketed_eq_owing (ended : change.outcome { database := db } = (.ok v, y))
    (owing : 0 < y.owed) : (change.bracketed table).outcome db = (.error .owing, db) := by
  unfold bracketed
  rw [Attempt.outcome_of, ended]
  exact if_pos owing

theorem bracketed_eq_error {fault : Fault}
    (failed : change.outcome { database := db } = (.error fault, y)) :
    (change.bracketed table).outcome db = (.error (.ofFault table fault), db) := by
  unfold bracketed
  rw [Attempt.outcome_of, failed]

/-- A change that fails in a transaction of its own leaves the database as it was. -/
theorem bracketed_failed (change : Change α) (table : String) (db : Database)
    (failed : ((change.bracketed table).outcome db).1.toOption = none) :
    ((change.bracketed table).outcome db).2 = db := by
  cases ended : change.outcome { database := db } with
  | mk result y =>
      cases result with
      | error fault => rw [bracketed_eq_error ended]
      | ok v =>
          by_cases owing : 0 < y.owed
          · rw [bracketed_eq_owing ended owing]
          · rw [bracketed_eq_ok ended owing] at failed
            cases failed

end Change

namespace Connection

open Attempt (Ends)

variable {others : List Transaction} {c : Nat} {before db : Database} {x : Content} {s : Store}
  {table sql : String} {α : Type}

theorem begin_ends (clear : Clear others c table) (rest : Resting others sql db s) :
    (begin c .immediate).Ends s (fun _ next => Writing others sql c db { database := db } next)
      fun _ _ => False :=
  (Store.begin_ends clear rest).mapError

theorem enter_ends (clear : Clear others c table) (rest : Resting others sql db s) :
    (enter c .immediate).Ends s
      (fun began next => began = true ∧ Writing others sql c db { database := db } next)
      fun _ _ => False := by
  refine .congr (enter_closed (rest.isOpen clear) .immediate) ?_
  refine (begin_ends clear rest).bind ?_ ?_
  · exact fun _ _ writing => .pure ⟨rfl, writing⟩
  · exact fun _ _ never => never

theorem fail_ends (clear : Clear others c table) (writing : Writing others sql c before x s)
    (e : Error) : (fail c e : Attempt Store Error α).Ends s (fun _ _ => False)
      fun error next => error = e ∧ Resting others sql before next := by
  have undone : (rollback c).Ends s (fun _ next => Resting others sql before next)
      fun _ _ => False := (Store.rollback_ends clear writing).mapError
  unfold fail
  refine .observing (undone.mono ?_ ?_)
  · exact fun _ _ rest => .throw ⟨rfl, rest⟩
  · exact fun _ _ never => never.elim

/-- Ending the transaction of a body that succeeded. -/
theorem conclude_ok_ends (clear : Clear others c table) (writing : Writing others sql c before x s)
    (v : α) : (conclude c (.ok v)).Ends s
      (fun w next => w = v ∧ ¬ 0 < x.owed ∧ Resting others sql x.database next)
      fun e next => 0 < x.owed ∧ e = Error.ofTransaction "commit" .foreignKey ∧
        Resting others sql before next := by
  have committed : (commit c).Ends s
      (fun _ next => ¬ 0 < x.owed ∧ Resting others sql x.database next)
      fun e next => 0 < x.owed ∧ e = Error.ofTransaction "commit" .foreignKey ∧
        Writing others sql c before x next := by
    refine .mapError ((Store.commit_ends clear writing).mono ?_ ?_)
    · exact fun _ _ kept => kept
    · rintro _ next ⟨owing, rfl, held⟩
      exact ⟨owing, rfl, held⟩
  unfold conclude
  refine .observing (committed.mono ?_ ?_)
  · rintro _ reached ⟨settled, rest⟩
    exact .pure ⟨rfl, settled, rest⟩
  · rintro _ reached ⟨owing, rfl, held⟩
    refine (fail_ends clear held _).mono ?_ ?_
    · exact fun _ _ never => never.elim
    · exact fun _ _ undone => ⟨owing, undone⟩

/-- What a bracket makes of a store at rest, from what its body makes of the content. -/
theorem inTransaction_ends {body : Attempt Store Error α} (value : α → Content → Prop)
    (error : Error → Prop) (clear : Clear others c table) (rest : Resting others sql db s)
    (inner : ∀ entered, Writing others sql c db { database := db } entered →
      body.Ends entered (fun v next => ∃ y, value v y ∧ Writing others sql c db y next)
        fun e next => error e ∧ ∃ y, Writing others sql c db y next) :
    (inTransaction c .immediate body).Ends s
      (fun v next => ∃ y, value v y ∧ ¬ 0 < y.owed ∧ Resting others sql y.database next)
      fun e next => Resting others sql db next ∧
        (error e ∨ ∃ v y, value v y ∧ 0 < y.owed ∧
          e = Error.ofTransaction "commit" .foreignKey) := by
  obtain ⟨began, entered, begun, rfl, writing⟩ := (enter_ends clear rest).exists_ok
  unfold inTransaction
  refine .after begun (.observing ((inner entered writing).mono ?_ ?_))
  · rintro v reached ⟨y, holds, held⟩
    refine (conclude_ok_ends clear held v).mono ?_ ?_
    · rintro _ next ⟨rfl, settled, done⟩
      exact ⟨y, holds, settled, done⟩
    · rintro _ next ⟨owing, rfl, undone⟩
      exact ⟨undone, .inr ⟨v, y, holds, owing, rfl⟩⟩
  · rintro e reached ⟨holds, y, held⟩
    refine (fail_ends clear held e).mono ?_ ?_
    · exact fun _ _ never => never.elim
    · rintro _ next ⟨rfl, undone⟩
      exact ⟨undone, .inl holds⟩

/-- A bracket on a store at rest ends as the change that its body makes of the content ends in a
transaction of its own. -/
theorem inTransaction_outcome {body : Attempt Store Fault α} {change : Change α}
    (clear : Clear others c table) (rest : Resting others sql db s)
    (inner : ∀ entered, Writing others sql c db { database := db } entered →
      body.Ends entered
        (fun v next => ∃ y, change.outcome { database := db } = (.ok v, y) ∧
          Writing others sql c db y next)
        fun fault next => ∃ y, change.outcome { database := db } = (.error fault, y) ∧
          Writing others sql c db y next) :
    ((inTransaction c .immediate (body.mapError (Error.ofFault table))).outcome s).1 =
        ((change.bracketed table).outcome db).1 ∧
      Resting others sql ((change.bracketed table).outcome db).2
        ((inTransaction c .immediate (body.mapError (Error.ofFault table))).outcome s).2 := by
  have bracket := inTransaction_ends
    (fun v y => change.outcome { database := db } = (.ok v, y))
    (fun e => ∃ fault y, change.outcome { database := db } = (.error fault, y) ∧
      e = Error.ofFault table fault)
    clear rest fun entered writing => .mapError ((inner entered writing).mono
      (fun _ _ ended => ended)
      fun fault _ ⟨y, ended, held⟩ => ⟨⟨fault, y, ended, rfl⟩, y, held⟩)
  rcases bracket.cases with ⟨v, next, ended, y, applied, settled, held⟩ |
    ⟨e, next, ended, held, ⟨fault, y, applied, rfl⟩ | ⟨v, y, applied, owing, rfl⟩⟩
  · rw [ended, Change.bracketed_eq_ok applied settled]
    exact ⟨rfl, held⟩
  · rw [ended, Change.bracketed_eq_error applied]
    exact ⟨rfl, held⟩
  · rw [ended, Change.bracketed_eq_owing applied owing]
    exact ⟨rfl, held⟩

end Connection

end TableAccess
