import TableAccess.Proofs.Filter.Operands
import TableAccess.Proofs.Number.Rounding
import TableAccess.Store.Cell

/-!
# Scalars of documents

A scalar of a document is read as the value that it is, and written back as the same scalar. The
exception is an integer above the greatest signed one of 64 bits: there is no such value, and the
nearest double stands for it. A filter that is read from a document binds what its scalars are read
as, and therefore compares with the numbers of the document, or with those doubles.
-/

namespace TableAccess

open Number (Binary64 Unpacked IsNearest)

/-! ## What a document can hold -/

namespace Json

/-- The scalars that a document can hold: its integers fit 64 bits, with a sign or without one, and
its other numbers are finite. -/
inductive IsHeld : Json → Prop where
  | null : IsHeld .null
  | bool (flag : Bool) : IsHeld (.bool flag)
  | integer {n : Int} (low : -2 ^ 63 ≤ n) (high : n < 2 ^ 64) : IsHeld (.integer n)
  | float {x : Binary64} (finite : x.isFinite = true) : IsHeld (.float x)
  | text (s : String) : IsHeld (.text s)

/-- Whether the value is an integer above the greatest signed one of 64 bits. -/
def isUnsigned : Json → Bool
  | integer n => 2 ^ 63 ≤ n
  | _ => false

def amount? : Json → Option ℚ
  | integer n => some n
  | float x => x.unpack.amount?
  | _ => none

theorem IsHeld.isScalar {j : Json} (held : j.IsHeld) : j.isScalar = true := by
  cases held <;> rfl

end Json

def Cell.amount? (c : Cell) : Option ℚ := c.number?.bind Unpacked.amount?

theorem Number.Binary64.isNaN_of_isFinite {x : Binary64} (finite : x.isFinite = true) :
    x.isNaN = false := by
  unfold isFinite at finite
  rw [isNaN, decide_eq_false_iff_not]
  intro missing
  rw [missing] at finite
  cases finite

theorem Cell.ofReal_of_isFinite {x : Binary64} (finite : x.isFinite = true) :
    ofReal x = real x := by
  rw [ofReal, Binary64.isNaN_of_isFinite finite]
  rfl

/-! ## Reading and writing back -/

namespace Value

/-- A scalar is kept: it is written back as it was, and a number is bound with its value. -/
structure Keeps (j : Json) : Prop where
  writtenBack : (ofJson j).toJson = j
  boundAs : ∀ r, j.amount? = some r → (Cell.ofValue (ofJson j)).amount? = some r

/-- An integer is read as a double nearest to it: as a multiple of 2048, which is the integer itself
if that is a multiple too, and the even one of two that are equally near. -/
structure Rounds (n : Int) (x : Binary64) : Prop where
  read : ofJson (.integer n) = .double x
  writtenBack : (ofJson (.integer n)).toJson = .float x
  bound : Cell.ofValue (ofJson (.integer n)) = .real x
  nearest : ∃ q : Nat, IsNearest n.toNat 2048 q ∧ x.unpack.amount? = some ((q * 2048 : Nat) : ℚ)
  exact : x.unpack.amount? = some (n : ℚ) ↔ 2048 ∣ n

theorem ofInteger_of_signed {n : Int} (low : -2 ^ 63 ≤ n) (high : n < 2 ^ 63) :
    ofInteger n = .long (Int64.ofInt n) :=
  if_pos ⟨low, Int.le_sub_one_of_lt high⟩

theorem keeps_of_signed {j : Json} (held : j.IsHeld) (signed : j.isUnsigned = false) :
    Keeps j := by
  cases held with
  | null => exact ⟨rfl, nofun⟩
  | bool flag => exact ⟨rfl, nofun⟩
  | text s => exact ⟨rfl, nofun⟩
  | @integer n low high =>
      have small : n < 2 ^ 63 := by simpa [Json.isUnsigned] using signed
      have same : (Int64.ofInt n).toInt = n := Int64.toInt_ofInt_of_le low (by omega)
      have read : ofJson (.integer n) = .long (Int64.ofInt n) := ofInteger_of_signed low small
      refine ⟨?_, fun r valued => ?_⟩
      · rw [read, toJson, same]
      · cases valued
        rw [read, Cell.ofValue, Cell.amount?, Cell.number?, Option.bind_some,
          Unpacked.amount?_ofInt, same]
  | float finite =>
      refine ⟨?_, fun r valued => ?_⟩
      · simp only [ofJson, toJson, jsonOfDouble, finite, if_true]
      · rw [ofJson, Cell.ofValue, Cell.ofReal_of_isFinite finite]
        exact valued

theorem rounds_of_unsigned {n : Int} (low : 2 ^ 63 ≤ n) (high : n < 2 ^ 64) :
    ∃ x, Rounds n x := by
  have fits : (UInt64.ofNat n.toNat).toNat = n.toNat := by
    rw [UInt64.toNat_ofNat']
    exact Nat.mod_eq_of_lt (by omega)
  obtain ⟨q, nearest, valued⟩ :=
    Binary64.amount?_ofUInt64 (n := UInt64.ofNat n.toNat) (by rw [fits]; omega)
  rw [fits] at nearest
  have finite : (Binary64.ofUInt64 (UInt64.ofNat n.toNat)).isFinite = true := by
    rw [Binary64.isFinite, Unpacked.isFinite_eq, valued]
    rfl
  have read : ofJson (.integer n) = .double (.ofUInt64 (UInt64.ofNat n.toNat)) :=
    if_neg fun within => absurd within.2 (Int.not_le.mpr (Int.lt_of_lt_of_le (by decide) low))
  refine ⟨_, read, ?_, ?_, ⟨q, nearest, valued⟩, ?_⟩
  · simp only [read, toJson, jsonOfDouble, finite, if_true]
  · rw [read, Cell.ofValue, Cell.ofReal_of_isFinite finite]
  · have whole : ((q * 2048 : Nat) : ℚ) = (n : ℚ) ↔ q * 2048 = n.toNat := by
      rw [← Int.toNat_of_nonneg (by omega : 0 ≤ n)]
      norm_cast
    rw [valued, Option.some_inj, whole, nearest.eq_iff_dvd (by decide)]
    omega

end Value

/-! ## Filters -/

namespace Json

/-- A filter of one entry binds a scalar as the value that it is read as, alone under an operator
that takes one value and with others under an operator that takes a list. A comparison with null
binds nothing. -/
structure Binds (j : Json) (t : Table) (key : String) (op : Operator) : Prop where
  alone : op.takesList = false → j ≠ .null → ∃ f p, Filter.ofJson (.object [(key, j)]) = .ok f ∧
    t.compile f = .ok p ∧ p.params = [Value.ofJson j]
  listed : op.takesList = true → ∀ others, (∀ item ∈ others, item.isScalar = true) →
    ∃ f p, Filter.ofJson (.object [(key, .array (j :: others))]) = .ok f ∧
      t.compile f = .ok p ∧ p.params = Value.ofJson j :: others.map Value.ofJson

end Json

namespace Filter

variable {t : Table} {key : String} {field : String} {op : Operator} {j : Json}

theorem ofJson_entry {value : Json} {given : FilterValue}
    (read : entryOfMember key value = .ok given) :
    ofJson (.object [(key, value)]) = .ok (.entries [(key, given)]) := by
  rw [ofJson, entriesOfMembers, read]
  rfl

theorem compile_entry {given : FilterValue} {c : Condition} (plain : key ≠ orKey)
    (compiled : t.compileEntry key given = .ok (.condition c)) :
    t.compile (.entries [(key, given)]) = .ok (.condition c) := by
  rw [Table.compile, Table.compileEntries, Table.compileValue_of_ne plain, compiled]
  rfl

theorem entryOfMember_scalar (plain : key ≠ orKey) (scalar : j.isScalar = true) :
    entryOfMember key j = .ok (.scalar (Value.ofJson j)) := by
  cases j with
  | array items => cases scalar
  | object members => cases scalar
  | _ =>
      rw [entryOfMember, if_neg plain]
      · rfl
      · rintro _ ⟨⟩
      · rintro _ ⟨⟩

theorem entryOfMember_list {items : List Json} (plain : key ≠ orKey)
    (scalars : ∀ item ∈ items, item.isScalar = true) :
    entryOfMember key (.array items) = .ok (.list (items.map Value.ofJson)) := by
  rw [entryOfMember, if_neg plain, if_pos (List.all_eq_true.mpr scalars)]
  rfl

theorem binds_of_isScalar (scalar : j.isScalar = true) (plain : key ≠ orKey)
    (parsed : t.parseKey key = .ok (field, op)) : j.Binds t key op := by
  constructor
  · intro single something
    have notNull : Value.ofJson j ≠ .null := by
      cases j with
      | null => exact absurd rfl something
      | integer n =>
          rw [Value.ofJson, Value.ofInteger]
          split <;> exact nofun
      | _ => exact nofun
    refine ⟨_, _, ofJson_entry (entryOfMember_scalar plain scalar),
      compile_entry (c := ⟨t.name, field, op, .value (Value.ofJson j)⟩) plain ?_, ?_⟩
    · rw [Table.compileEntry, parsed]
      simp only [bind, Except.bind, single]
      rfl
    · rw [Predicate.params_eq_values]
      exact Condition.values_of_ne_null notNull
  · intro several others scalars
    have all : ∀ item ∈ j :: others, item.isScalar = true :=
      List.forall_mem_cons.mpr ⟨scalar, scalars⟩
    refine ⟨_, _, ofJson_entry (entryOfMember_list plain all),
      compile_entry (c := ⟨t.name, field, op, .list ((j :: others).map Value.ofJson)⟩) plain ?_, ?_⟩
    · rw [Table.compileEntry, parsed]
      simp only [bind, Except.bind, several]
      rfl
    · rw [Predicate.params_eq_values]
      rfl

end Filter

namespace Value

/-- A scalar that a document can hold survives being read as a value and written back, and a number
is bound with its value; only an integer above the greatest signed one of 64 bits is rounded to the
nearest double. Under a key with an operator a filter binds just what its scalars are read as, and
no filter that was read from a document binds anything else. -/
theorem signed_scalars_survive (j : Json) (held : j.IsHeld) :
    (j.isUnsigned = false → Keeps j) ∧
      (∀ n, j = .integer n → j.isUnsigned = true → ∃ x, Rounds n x) ∧
      (∀ (t : Table) key field op, key ≠ orKey → t.parseKey key = .ok (field, op) →
        j.Binds t key op) ∧
      ∀ document f (t : Table) p, Filter.ofJson document = .ok f → t.compile f = .ok p →
        p.params.Sublist (document.scalars.map ofJson) := by
  refine ⟨keeps_of_signed held, ?_, ?_, ?_⟩
  · rintro n rfl unsigned
    cases held with
    | integer low high => exact rounds_of_unsigned (of_decide_eq_true unsigned) high
  · exact fun t key field op plain parsed => Filter.binds_of_isScalar held.isScalar plain parsed
  · intro document f t p read compiled
    rw [Predicate.params_eq_values, ← Filter.operands_ofJson read]
    exact Table.compile_values compiled

/-- The greatest signed integer of 64 bits is kept, and so bound under a comparison. -/
theorem signed_scalars_survive_greatest :
    Json.IsHeld (.integer 9223372036854775807) ∧ Keeps (.integer 9223372036854775807) ∧
      Table.parseKey ⟨"t", [⟨"id", "INTEGER", true, true⟩], false⟩ "id__gte" = .ok ("id", .gte) ∧
      Json.Binds (.integer 9223372036854775807) ⟨"t", [⟨"id", "INTEGER", true, true⟩], false⟩
        "id__gte" .gte := by
  have held : Json.IsHeld (.integer 9223372036854775807) := .integer (by decide) (by decide)
  obtain ⟨kept, _, binds, _⟩ := signed_scalars_survive _ held
  exact ⟨held, kept rfl, rfl, binds _ "id__gte" "id" .gte (by decide) rfl⟩

/-- The integer after `2 ^ 63` comes back as a double and is bound as the integer before it. -/
theorem unsigned_scalar_is_rounded :
    Json.IsHeld (.integer 9223372036854775809) ∧
      (ofJson (.integer 9223372036854775809)).toJson = .float ⟨0x43E0000000000000⟩ ∧
      (ofJson (.integer 9223372036854775809)).toJson ≠ .integer 9223372036854775809 ∧
      Json.amount? (.integer 9223372036854775809) = some 9223372036854775809 ∧
      (Cell.ofValue (ofJson (.integer 9223372036854775809))).amount? = some 9223372036854775808 := by
  have read : ofJson (.integer 9223372036854775809) = .double ⟨0x43E0000000000000⟩ := by
    decide
  have parts : Binary64.unpack ⟨0x43E0000000000000⟩ = .finite false (2 ^ 52) 11 := by decide
  have finite : Binary64.isFinite ⟨0x43E0000000000000⟩ = true := by
    rw [Binary64.isFinite, parts]
    rfl
  have back : (ofJson (.integer 9223372036854775809)).toJson = .float ⟨0x43E0000000000000⟩ := by
    rw [read, toJson, jsonOfDouble, finite]
    rfl
  refine ⟨.integer (by decide) (by decide), back, ?_, by norm_num [Json.amount?], ?_⟩
  · rw [back]
    rintro ⟨⟩
  · rw [read, Cell.ofValue, Cell.ofReal_of_isFinite finite, Cell.amount?, Cell.number?,
      Option.bind_some, parts, Unpacked.amount?]
    norm_num [Number.signedBy]

end Value

end TableAccess
