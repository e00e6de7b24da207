import TableAccess.Proofs.Store.NewRow
import TableAccess.Proofs.Value.Scalars
import TableAccess.Value.Reading

/-!
# Trips of values

A value can be stored and read again, or written as JSON and read again. Its kind may change on the
way: flags, integers of 32 bits and instants come back as integers of 64 bits, and single precision
numbers as doubles. What it is read as stays the same, and a second trip changes nothing more.
-/

namespace TableAccess

open Number (Binary32 Binary64)

namespace Value

/-! ## Trips -/

/-- The value that a column which leaves every value as it is gives back. -/
def throughStore (v : Value) : Value := (ColumnType.blob.stored (Cell.ofValue v)).toValue

/-- The value that is read from the JSON that a value is written as. -/
def throughDocument (v : Value) : Value := ofJson v.toJson

def isMissing : Value → Bool
  | float x => x.unpack = .nan
  | double x => x.isNaN
  | _ => false

/-- Whether JSON has a value for it: there is none for an infinite or missing number, and bytes
become an array. -/
def hasPlainJson : Value → Bool
  | float x => x.unpack.isFinite
  | double x => x.isFinite
  | bytes _ => false
  | _ => true

/-- Whatever the first value is read as, the second one is read as too. -/
structure ReadsAs (v w : Value) : Prop where
  bool : ∀ x, v.asBool = some x → w.asBool = some x
  long : ∀ x, v.asLong = some x → w.asLong = some x
  double : ∀ x, v.asDouble = some x → w.asDouble = some x
  text : ∀ x, v.asText = some x → w.asText = some x
  bytes : ∀ x, v.asBytes = some x → w.asBytes = some x
  instant : ∀ x, v.asInstant = some x → w.asInstant = some x

/-- A trip takes a value to one that is read as the first was, is null if that was, and stays what
it is on a further trip. -/
structure Survives (trip : Value → Value) (v : Value) : Prop where
  readsAs : v.ReadsAs (trip v)
  null : v = .null ↔ trip v = .null
  settled : trip (trip v) = trip v

/-! ## Kinds that change -/

theorem ReadsAs.refl (v : Value) : v.ReadsAs v :=
  ⟨fun _ => id, fun _ => id, fun _ => id, fun _ => id, fun _ => id, fun _ => id⟩

theorem readsAs_bool (flag : Bool) : (bool flag).ReadsAs (long (if flag then 1 else 0)) where
  bool := by cases flag <;> exact fun _ => id
  long := fun _ => id
  double := nofun
  text := nofun
  bytes := nofun
  instant := nofun

theorem readsAs_int (n : Int32) : (int n).ReadsAs (long n.toInt64) where
  bool := by
    have zero : n.toInt64 = 0 ↔ n = 0 := by
      rw [← Int64.toInt_inj, ← Int32.toInt_inj, Int32.toInt_toInt64]
      rfl
    have same : (n.toInt64 != 0) = (n != 0) := by
      rw [bne, bne, Bool.beq_eq_decide_eq, Bool.beq_eq_decide_eq, decide_eq_decide.mpr zero]
    intro x read
    rw [← read, asBool, asBool, same]
  long := fun _ => id
  double := fun _ => id
  text := nofun
  bytes := nofun
  instant := by
    intro x read
    rw [← read, asInstant, asInstant, Int32.toInt_toInt64]

theorem readsAs_float (x : Binary32) : (float x).ReadsAs (double x.widen) where
  bool := nofun
  long := fun _ => id
  double := fun _ => id
  text := nofun
  bytes := nofun
  instant := nofun

theorem readsAs_timestamp (micros : Int64) : (timestamp micros).ReadsAs (long micros) where
  bool := nofun
  long := fun _ => id
  double := nofun
  text := nofun
  bytes := nofun
  instant := fun _ => id

/-! ## What survives -/

theorem Survives.of_eq {trip : Value → Value} {v w : Value} (went : trip v = w)
    (stays : trip w = w) (alike : v.ReadsAs w) (null : v = .null ↔ w = .null) :
    Survives trip v := by
  subst went
  exact ⟨alike, null, stays⟩

theorem throughStore_double {x : Binary64} (number : x.isNaN = false) :
    throughStore (double x) = double x := by
  rw [throughStore, Cell.ofValue, Cell.ofReal, number]
  rfl

theorem isNaN_widen_eq_false {x : Binary32} (number : (float x).isMissing = false) :
    x.widen.isNaN = false := by
  rw [← Bool.not_eq_true, x.isNaN_widen]
  exact of_decide_eq_false number

theorem survives_throughStore {v : Value} (number : v.isMissing = false) :
    Survives throughStore v := by
  cases v with
  | null => exact .of_eq rfl rfl (.refl _) Iff.rfl
  | bool flag => exact .of_eq rfl rfl (readsAs_bool flag) (iff_of_false nofun nofun)
  | int n => exact .of_eq rfl rfl (readsAs_int n) (iff_of_false nofun nofun)
  | long n => exact .of_eq rfl rfl (.refl _) Iff.rfl
  | float x =>
      have kept := throughStore_double (isNaN_widen_eq_false number)
      exact .of_eq kept kept (readsAs_float x) (iff_of_false nofun nofun)
  | double x =>
      have kept := throughStore_double (x := x) number
      exact .of_eq kept kept (.refl _) Iff.rfl
  | text s => exact .of_eq rfl rfl (.refl _) Iff.rfl
  | bytes bs => exact .of_eq rfl rfl (.refl _) Iff.rfl
  | timestamp micros => exact .of_eq rfl rfl (readsAs_timestamp micros) (iff_of_false nofun nofun)

theorem throughDocument_long (n : Int64) : throughDocument (long n) = long n := by
  have within : Int64.minValue.toInt ≤ n.toInt ∧ n.toInt ≤ Int64.maxValue.toInt :=
    ⟨Int64.minValue_le_toInt n, Int64.toInt_le n⟩
  rw [throughDocument, toJson, ofJson, ofInteger, if_pos within, Int64.ofInt_toInt]

theorem throughDocument_int (n : Int32) : throughDocument (int n) = long n.toInt64 := by
  rw [← throughDocument_long, throughDocument, throughDocument, toJson, toJson,
    Int32.toInt_toInt64]

theorem throughDocument_double {x : Binary64} (finite : x.isFinite = true) :
    throughDocument (double x) = double x := by
  rw [throughDocument, toJson, jsonOfDouble, finite]
  rfl

theorem survives_throughDocument {v : Value} (plain : v.hasPlainJson = true) :
    Survives throughDocument v := by
  cases v with
  | null => exact .of_eq rfl rfl (.refl _) Iff.rfl
  | bool flag => exact .of_eq rfl rfl (.refl _) Iff.rfl
  | int n =>
      exact .of_eq (throughDocument_int n) (throughDocument_long _) (readsAs_int n)
        (iff_of_false nofun nofun)
  | long n => exact .of_eq (throughDocument_long n) (throughDocument_long n) (.refl _) Iff.rfl
  | float x =>
      have kept := throughDocument_double (x.isFinite_widen.trans plain)
      exact .of_eq kept kept (readsAs_float x) (iff_of_false nofun nofun)
  | double x =>
      have kept := throughDocument_double (x := x) plain
      exact .of_eq kept kept (.refl _) Iff.rfl
  | text s => exact .of_eq rfl rfl (.refl _) Iff.rfl
  | bytes bs => cases plain
  | timestamp micros =>
      exact .of_eq (throughDocument_long micros) (throughDocument_long micros)
        (readsAs_timestamp micros) (iff_of_false nofun nofun)

/-- A new row gives back what the value for a column becomes on the trip through the store, if the
column leaves every value as it is. -/
theorem toValue_cellAt_newRow {t : StoredTable} {given : List (String × Cell)} {row : StoredRow}
    {c : StoredColumn} {name : String} {v : Value} (apart : t.definition.Apart)
    (made : t.newRow given = .ok row) (listed : c ∈ t.definition.columns) (kind : c.type = .blob)
    (value : given.find? (fun entry => Text.same entry.1 c.name) = some (name, Cell.ofValue v)) :
    (t.cellAt row c.name).toValue = v.throughStore := by
  obtain ⟨i, here⟩ := List.getElem?_of_mem listed
  have unnamed : ¬ t.definition.namesNumber c.name = true := by
    intro named
    have position := (Definition.namesNumber_iff (Definition.position?_name apart here)).mp named
    -- the column for the row number prefers integers
    rw [Definition.type_of_alias apart position here] at kind
    cases kind
  rw [StoredTable.cellAt_newRow apart made here, if_neg unnamed, StoredTable.newCell_of_find? value,
    kind]
  rfl

/-- A value that is no missing number is read in the same ways after it was stored in a column which
leaves it as it is, and after it was written as JSON if there is JSON for it. It is null then if it
was null, and a second trip changes nothing more. -/
theorem trips_read_alike (v : Value) (number : v.isMissing = false) :
    Survives throughStore v ∧ (v.hasPlainJson = true → Survives throughDocument v) ∧
      ∀ (t : StoredTable) given row (c : StoredColumn) name, t.definition.Apart →
        t.newRow given = .ok row → c ∈ t.definition.columns → c.type = .blob →
        given.find? (fun entry => Text.same entry.1 c.name) = some (name, Cell.ofValue v) →
        (t.cellAt row c.name).toValue = v.throughStore :=
  ⟨survives_throughStore number, survives_throughDocument,
    fun _ _ _ _ _ apart made listed kind value =>
      toValue_cellAt_newRow apart made listed kind value⟩

/-- The single precision number nearest to a tenth is read as the same double after both trips. -/
theorem trips_read_alike_tenth :
    (float ⟨0x3DCCCCCD⟩).isMissing = false ∧
      (float ⟨0x3DCCCCCD⟩).asDouble = some ⟨0x3FB99999A0000000⟩ ∧
      (throughStore (float ⟨0x3DCCCCCD⟩)).asDouble = some ⟨0x3FB99999A0000000⟩ ∧
      (throughDocument (float ⟨0x3DCCCCCD⟩)).asDouble = some ⟨0x3FB99999A0000000⟩ := by
  have number : (float ⟨0x3DCCCCCD⟩).isMissing = false := by decide
  have read : (float ⟨0x3DCCCCCD⟩).asDouble = some ⟨0x3FB99999A0000000⟩ := by decide
  obtain ⟨stored, written, _⟩ := trips_read_alike (float ⟨0x3DCCCCCD⟩) number
  exact ⟨number, read, stored.readsAs.double _ read,
    (written (by decide)).readsAs.double _ read⟩

end Value

end TableAccess
