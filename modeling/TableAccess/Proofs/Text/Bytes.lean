import Mathlib.Data.String.Basic

/-!
# The order of texts and of their bytes

Texts are compared character by character, but also byte by byte in UTF-8, and this gives the same
order. The code of a character has a first byte that grows with the number of bytes, and then six
bits of the character in each byte. So of two different codes, the one of the earlier character
has the lower byte where they first differ, and that is before either of them ends.
-/

namespace TableAccess.Text

def bytes (text : String) : List UInt8 := text.toUTF8.data.toList

theorem bytes_eq_flatMap (text : String) :
    bytes text = text.toList.flatMap String.utf8EncodeChar := by
  rw [bytes, String.toUTF8, ← String.utf8Encode_toList, List.utf8Encode,
    List.toList_data_toByteArray]

/-! ## Codes -/

variable {v w lead leadOther count countOther : Nat} {rest others : List UInt8}

/-- The code of a value: a first byte from `lead` on with the value's highest bits, and a number of
bytes with six bits each. -/
def code (lead : Nat) : Nat → Nat → List UInt8
  | 0, v => [UInt8.ofNat (v + lead)]
  | count + 1, v => code lead count (v / 64) ++ [UInt8.ofNat (v % 64 + 128)]

theorem ofNat_cons_lt {x y : Nat} (fits : y < 256) (before : x < y) :
    UInt8.ofNat x :: rest < UInt8.ofNat y :: others := by
  rw [List.cons_lt_cons_iff, UInt8.lt_iff_toNat_lt,
    UInt8.toNat_ofNat_of_lt' fits, UInt8.toNat_ofNat_of_lt' (before.trans fits)]
  exact .inl before

theorem exists_code_eq (lead count v : Nat) :
    ∃ tail, code lead count v = UInt8.ofNat (v / 64 ^ count + lead) :: tail := by
  induction count generalizing v with
  | zero => exact ⟨[], by rw [code, Nat.pow_zero, Nat.div_one]⟩
  | succ count ih =>
      obtain ⟨tail, earlier⟩ := ih (v / 64)
      refine ⟨tail ++ [UInt8.ofNat (v % 64 + 128)], ?_⟩
      rw [code, earlier, List.cons_append, Nat.div_div_eq_div_mul, Nat.pow_succ']

/-- Codes with different first bytes are in the order of these. -/
theorem code_append_lt_of_lead (fits : w / 64 ^ countOther + leadOther < 256)
    (before : v / 64 ^ count + lead < w / 64 ^ countOther + leadOther) :
    code lead count v ++ rest < code leadOther countOther w ++ others := by
  obtain ⟨tail, first⟩ := exists_code_eq lead count v
  obtain ⟨tailOther, second⟩ := exists_code_eq leadOther countOther w
  rw [first, second]
  exact ofNat_cons_lt fits before

/-- Codes of one form are in the order of the values that they stand for. -/
theorem code_append_lt (fits : w / 64 ^ count + lead < 256) (before : v < w) :
    code lead count v ++ rest < code lead count w ++ others := by
  induction count generalizing v w rest others with
  | zero =>
      rw [Nat.pow_zero, Nat.div_one] at fits
      exact ofNat_cons_lt fits (by omega)
  | succ count ih =>
      rw [Nat.pow_succ', ← Nat.div_div_eq_div_mul] at fits
      simp only [code, List.append_assoc, List.cons_append, List.nil_append]
      -- the values differ above their last six bits, or only in these
      rcases Nat.lt_or_eq_of_le (Nat.div_le_div_right (c := 64) before.le) with above | same
      · exact ih fits above
      · rw [same]
        exact List.append_left_lt (ofNat_cons_lt (by omega) (by omega))

/-- The first byte and the number of bytes after it that the code of a value has. -/
inductive Form (v : Nat) : Nat → Nat → Prop
  | one : v < 0x80 → Form v 0 0
  | two : 0x80 ≤ v → v < 0x800 → Form v 0xc0 1
  | three : 0x800 ≤ v → v < 0x10000 → Form v 0xe0 2
  | four : 0x10000 ≤ v → v < 0x110000 → Form v 0xf0 3

theorem Form.fits (form : Form v lead count) : v / 64 ^ count + lead < 256 := by
  cases form <;> omega

/-- Values in order have codes of one form, or first bytes in order. -/
theorem Form.compare (form : Form v lead count) (other : Form w leadOther countOther)
    (before : v < w) : lead = leadOther ∧ count = countOther ∨
      v / 64 ^ count + lead < w / 64 ^ countOther + leadOther := by
  cases form <;> cases other <;> omega

theorem exists_form (c : Char) :
    ∃ lead count, Form c.val.toNat lead count ∧
      String.utf8EncodeChar c = code lead count c.val.toNat := by
  have bound : c.val.toNat < 0x110000 := by
    have valid := c.valid
    unfold UInt32.isValidChar Nat.isValidChar at valid
    omega
  unfold String.utf8EncodeChar
  dsimp only
  generalize c.val.toNat = v at *
  by_cases one : v ≤ 0x7f
  · exact ⟨_, _, .one (by omega), if_pos one⟩
  rw [if_neg one]
  by_cases two : v ≤ 0x7ff
  · refine ⟨_, _, .two (by omega) (by omega), ?_⟩
    rw [if_pos two, Nat.mod_eq_of_lt (by omega)]
    rfl
  rw [if_neg two]
  by_cases three : v ≤ 0xffff
  · refine ⟨_, _, .three (by omega) (by omega), ?_⟩
    simp only [code, List.cons_append, List.nil_append, Nat.div_div_eq_div_mul]
    rw [if_pos three, Nat.mod_eq_of_lt (by omega : v / 4096 < 0x10)]
  · refine ⟨_, _, .four (by omega) bound, ?_⟩
    simp only [code, List.cons_append, List.nil_append, Nat.div_div_eq_div_mul]
    rw [if_neg three, Nat.mod_eq_of_lt (by omega : v / 262144 < 0x08)]

theorem utf8EncodeChar_append_lt {c d : Char} (before : c < d) :
    String.utf8EncodeChar c ++ rest < String.utf8EncodeChar d ++ others := by
  obtain ⟨lead, count, form, coded⟩ := exists_form c
  obtain ⟨leadOther, countOther, formOther, codedOther⟩ := exists_form d
  rw [coded, codedOther]
  rcases form.compare formOther before with ⟨rfl, rfl⟩ | earlier
  · exact code_append_lt formOther.fits before
  · exact code_append_lt_of_lead formOther.fits earlier

/-! ## Texts -/

theorem flatMap_utf8EncodeChar_lt {first second : List Char} (before : first < second) :
    first.flatMap String.utf8EncodeChar < second.flatMap String.utf8EncodeChar := by
  induction first generalizing second with
  | nil =>
      cases second with
      | nil => exact absurd before (List.lt_irrefl _)
      | cons d others =>
          rw [List.flatMap_nil, List.flatMap_cons]
          cases coded : String.utf8EncodeChar d with
          | nil => exact absurd coded String.utf8EncodeChar_ne_nil
          | cons byte tail => exact List.nil_lt_cons _ _
  | cons c rest ih =>
      cases second with
      | nil => exact absurd before (List.not_lt_nil _)
      | cons d others =>
          rw [List.flatMap_cons, List.flatMap_cons]
          rcases List.cons_lt_cons_iff.mp before with lower | ⟨rfl, later⟩
          · exact utf8EncodeChar_append_lt lower
          · exact List.append_left_lt (ih later)

theorem bytes_lt_of_lt {first second : String} (before : first < second) :
    bytes first < bytes second := by
  rw [bytes_eq_flatMap, bytes_eq_flatMap]
  exact flatMap_utf8EncodeChar_lt (String.lt_iff_toList_lt.mp before)

end TableAccess.Text
