import TableAccess.Proofs.Schema.Snapshot
import TableAccess.Proofs.Store.Tables
import TableAccess.Store.Discovery

/-!
# What is discovered

A catalog that has discovered a database describes every table as it is stored: no two tables have
one name, and a view cannot have that of a table.
-/

namespace TableAccess

namespace Database

variable {db : Database} {name : String} {t : StoredTable} {described : Table}

theorem table?_congr {other : String} (same : Text.same name other = true) :
    db.table? name = db.table? other := by
  unfold table?
  simp only [Text.same_congr_right same]

theorem view?_congr {other : String} (same : Text.same name other = true) :
    db.view? name = db.view? other := by
  unfold view?
  simp only [Text.same_congr_right same]

theorem describe_congr {other : String} (same : Text.same name other = true) :
    db.describe name = db.describe other := by
  unfold describe
  rw [table?_congr same, view?_congr same]

theorem source_congr {other : String} (same : Text.same name other = true) {found : Source}
    (here : db.source name = .ok found) : db.source other = .ok found := by
  unfold source at here ⊢
  rw [← table?_congr same, ← view?_congr same]
  split at here
  · exact here
  · split at here
    · exact here
    · cases here

/-- What a description is of: a table, or a view in whose place there is no table. -/
theorem describe_cases (shown : db.describe name = .ok (some described)) :
    (∃ t, db.table? name = some t ∧ described = t.definition.describe) ∨
      ∃ v t, db.table? name = none ∧ db.view? name = some v ∧ db.underView v = .ok t ∧
        described = describeView v.name t.definition := by
  unfold describe at shown
  split at shown
  · rename_i t here
    cases shown
    exact .inl ⟨t, here, rfl⟩
  · rename_i missing
    split at shown
    · rename_i v viewed
      cases under : db.underView v with
      | error fault => simp [under, Except.map, Except.mapError] at shown
      | ok t =>
          rw [under] at shown
          cases shown
          exact .inr ⟨v, t, missing, viewed, under, rfl⟩
    · cases shown

/-- A description has the name that it was asked for, but for the case of letters. -/
theorem same_of_describe (shown : db.describe name = .ok (some described)) :
    Text.same described.name name = true := by
  rcases describe_cases shown with ⟨t, here, rfl⟩ | ⟨v, t, _, viewed, _, rfl⟩
  · exact (of_table? here).2
  · unfold view? at viewed
    have held := List.find?_some viewed
    exact held

/-- A table is described as it is stored. -/
theorem Sound.eq_of_describe (sound : db.Sound) (shown : db.describe name = .ok (some described))
    (found : db.table? described.name = some t) : described = t.definition.describe := by
  have same := same_of_describe shown
  rcases describe_cases shown with ⟨own, here, rfl⟩ | ⟨v, under, missing, _⟩
  · obtain ⟨there, named⟩ := of_table? found
    have one : t = own := List.inj_on_of_nodup_map sound.apart there (of_table? here).1
      (Text.same_iff.mp named)
    exact one ▸ rfl
  · -- a table of the view's name would have been described instead
    rw [table?_congr same, missing] at found
    cases found

/-- Every description that is discovered is that of a name. -/
theorem of_discover {tables : List Table} (found : db.discover = .ok tables)
    (member : described ∈ tables) : ∃ name, db.describe name = .ok (some described) := by
  obtain ⟨shown, each, rest⟩ := bind_eq_ok_iff.mp found
  cases rest
  obtain ⟨_, listed, rfl⟩ := List.mem_filterMap.mp member
  obtain ⟨name, _, ended⟩ := of_mapM_eq_ok each _ listed
  exact ⟨name, ended⟩

end Database

/-- A catalog describes a database if it has every table of it under the name that it has in its
description, and just as the database describes it. -/
def Snapshot.Describes (s : Snapshot) (db : Database) : Prop :=
  ∀ name described, s.resolve name = .ok described →
    described.name = name ∧ db.describe name = .ok (some described)

/-- A catalog of what is discovered describes the database. -/
theorem Snapshot.describes_of_discover {s : Snapshot} {db : Database}
    (discovered : (db.discover).map ofList = .ok s) : s.Describes db := by
  intro name described resolved
  cases shown : db.discover with
  | error fault =>
      rw [shown] at discovered
      cases discovered
  | ok tables =>
      rw [shown] at discovered
      rw [← Except.ok.inj discovered] at resolved
      obtain ⟨listed, rfl⟩ := of_resolve resolved
      obtain ⟨own, here⟩ := Database.of_discover shown listed
      exact ⟨rfl, (Database.describe_congr (Database.same_of_describe here)).trans here⟩

/-- A snapshot describes those plain tables in it that are stored as they are stored. -/
def Snapshot.Current (plain : String → Prop) (s : Snapshot) (db : Database) : Prop :=
  ∀ name described t, s.resolve name = .ok described → plain described.name →
    db.table? described.name = some t → described = t.definition.describe

/-- A snapshot of what is discovered now is current. -/
theorem Snapshot.current_of_discover {s : Snapshot} {db : Database} (sound : db.Sound)
    (discovered : (db.discover).map ofList = .ok s) (plain : String → Prop) : s.Current plain db := by
  intro name described t resolved _ found
  obtain ⟨named, shown⟩ := describes_of_discover discovered name described resolved
  exact sound.eq_of_describe shown (named ▸ found)

end TableAccess
