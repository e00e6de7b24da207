import Mathlib.Algebra.Order.Field.Power
import Mathlib.Algebra.Order.Field.Rat
import Mathlib.Tactic.Ring
import TableAccess.Number.Binary

/-!
# Rounding to doubles

The double nearest to a number keeps the first 53 binary digits of it. A number with no more digits
than these is kept as it is, and any other becomes the nearest multiple of the unit of the last
digit, the even one of two that are equally near.
-/

namespace TableAccess.Number

/-! ## Quotients -/

/-- The multiple of a unit is the nearest to a number, and the even one of two that are. -/
structure IsNearest (n unit q : Nat) : Prop where
  notAbove : 2 * (q * unit) ≤ 2 * n + unit
  notBelow : 2 * n ≤ 2 * (q * unit) + unit
  even : 2 * (q * unit) = 2 * n + unit ∨ 2 * n = 2 * (q * unit) + unit → q % 2 = 0

theorem shiftRounded_isNearest (n places : Nat) :
    IsNearest n (2 ^ places) (shiftRounded n places false) := by
  have split : 2 ^ places * (n / 2 ^ places) + n % 2 ^ places = n := Nat.div_add_mod n _
  have small : n % 2 ^ places < 2 ^ places := Nat.mod_lt _ (Nat.two_pow_pos places)
  simp only [shiftRounded, Nat.pow_eq, Bool.false_eq_true, false_or]
  generalize 2 ^ places = unit at *
  generalize n / unit = q at *
  generalize n % unit = r at *
  rw [Nat.mul_comm] at split
  split
  · rename_i up
    have next : (q + 1) * unit = q * unit + unit := Nat.succ_mul q unit
    constructor <;> omega
  · rename_i down
    constructor <;> omega

/-- A multiple of the unit is the nearest one to itself, and to no other number. -/
theorem IsNearest.eq_iff_dvd {n unit q : Nat} (nearest : IsNearest n unit q) (pos : 0 < unit) :
    q * unit = n ↔ unit ∣ n := by
  constructor
  · rintro rfl
    exact Nat.dvd_mul_left unit q
  · rintro ⟨k, rfl⟩
    have above := nearest.notAbove
    have below := nearest.notBelow
    rw [Nat.mul_comm unit k] at *
    rcases Nat.lt_trichotomy q k with less | rfl | more
    · have step : q * unit + unit ≤ k * unit := Nat.succ_mul q unit ▸ Nat.mul_le_mul_right unit less
      omega
    · rfl
    · have step : k * unit + unit ≤ q * unit := Nat.succ_mul k unit ▸ Nat.mul_le_mul_right unit more
      omega

theorem le_of_binaryLength {n : Nat} (pos : 0 < n) : 2 ^ (binaryLength n - 1) ≤ n := by
  rw [binaryLength, if_neg pos.ne']
  exact Nat.log2_self_le pos.ne'

theorem lt_two_pow_binaryLength (n : Nat) : n < 2 ^ binaryLength n := by
  unfold binaryLength
  split
  · omega
  · exact Nat.lt_log2_self

theorem binaryLength_le {n places : Nat} (small : n < 2 ^ places) : binaryLength n ≤ places := by
  unfold binaryLength
  split
  · exact Nat.zero_le _
  · rename_i pos
    exact (Nat.log2_lt pos).mpr small

theorem binaryLength_eq {n places : Nat} (low : 2 ^ places ≤ n) (high : n < 2 ^ (places + 1)) :
    binaryLength n = places + 1 := by
  have pos : n ≠ 0 := (Nat.lt_of_lt_of_le (Nat.two_pow_pos places) low).ne'
  rw [binaryLength, if_neg pos, (Nat.log2_eq_iff pos).mpr ⟨low, high⟩]

/-! ## Patterns -/

/-- The exact value of a number; infinite and missing numbers have none. -/
def Unpacked.amount? : Unpacked → Option ℚ
  | finite negative significand exponent => some (signedBy negative significand * 2 ^ exponent)
  | _ => none

theorem Unpacked.isFinite_eq (x : Unpacked) : x.isFinite = x.amount?.isSome := by
  cases x <;> rfl

theorem Unpacked.amount?_ofInt (n : Int) : (ofInt n).amount? = some (n : ℚ) := by
  have signed : signedBy (n < 0) n.natAbs = n := by
    rw [signedBy]
    by_cases negative : n < 0
    · rw [if_pos (decide_eq_true negative)]
      omega
    · rw [if_neg (by simpa using negative)]
      omega
  rw [ofInt, amount?, signed, zpow_zero, mul_one]

/-- The parts of a double pattern are read off its fields. -/
theorem ofPattern_double (negative : Bool) {biased fraction : Nat} (inBiased : biased < 2047)
    (inFraction : fraction < 2 ^ 52) :
    Unpacked.ofPattern 52 11 ((if negative then 2 ^ 63 else 0) + (biased * 2 ^ 52 + fraction)) =
      if biased = 0 then .finite negative fraction (-1074)
      else .finite negative (2 ^ 52 + fraction) (biased - 1075) := by
  have fields (sign : Nat) (inSign : sign < 2) :
      (sign * 2 ^ 63 + (biased * 2 ^ 52 + fraction)) % 2 ^ 52 = fraction ∧
      (sign * 2 ^ 63 + (biased * 2 ^ 52 + fraction)) / 2 ^ 52 % 2 ^ 11 = biased ∧
      (sign * 2 ^ 63 + (biased * 2 ^ 52 + fraction)) / 2 ^ 63 % 2 = sign := by
    omega
  have signed : (if negative then 2 ^ 63 else 0) = (if negative then 1 else 0) * 2 ^ 63 := by
    cases negative <;> rfl
  obtain ⟨atFraction, atBiased, atSign⟩ := fields (if negative then 1 else 0) (by split <;> decide)
  rw [signed]
  simp only [Unpacked.ofPattern, Nat.pow_eq, atFraction, atBiased, atSign]
  have flag : ((if negative then 1 else 0) == 1) = negative := by cases negative <;> rfl
  have least : (2 - ((2 ^ (11 - 1) : Nat) : Int) - (52 : Nat)) = -1074 := rfl
  have lowest : -1074 + (biased : Int) - 1 = biased - 1075 := by omega
  rw [if_neg (by omega), flag, least, lowest]

/-! ## The nearest double -/

namespace Binary64

variable {significand : Nat} {exponent place : Int}

/-- In units of its last place a number has 53 digits, or is rounded to the power of two above. -/
theorem inUnits_bounds (pos : 0 < significand)
    (isPlace : exponent + binaryLength significand - 53 = place) :
    2 ^ 52 ≤ inUnits significand exponent place ∧ inUnits significand exponent place ≤ 2 ^ 53 := by
  have low := le_of_binaryLength pos
  have high := lt_two_pow_binaryLength significand
  have some : 0 < binaryLength significand := by
    rw [binaryLength, if_neg pos.ne']
    exact Nat.succ_pos _
  unfold inUnits
  split
  · -- the digits are filled up with zeros
    have parts : (exponent - place).toNat = 53 - binaryLength significand := by omega
    have short : binaryLength significand ≤ 53 := by omega
    rw [parts, Nat.pow_eq]
    constructor
    · calc 2 ^ 52 = 2 ^ (binaryLength significand - 1) * 2 ^ (53 - binaryLength significand) := by
            rw [← Nat.pow_add]
            congr 1
            omega
        _ ≤ significand * 2 ^ (53 - binaryLength significand) := Nat.mul_le_mul_right _ low
    · calc significand * 2 ^ (53 - binaryLength significand)
          ≤ 2 ^ binaryLength significand * 2 ^ (53 - binaryLength significand) :=
            Nat.mul_le_mul_right _ high.le
        _ = 2 ^ 53 := by
            rw [← Nat.pow_add]
            congr 1
            omega
  · -- the quotient by the unit has 53 digits, and rounding adds at most one
    have parts : (place - exponent).toNat = binaryLength significand - 53 := by omega
    have quotientLow : 2 ^ 52 ≤ significand / 2 ^ (binaryLength significand - 53) := by
      rw [Nat.le_div_iff_mul_le (Nat.two_pow_pos _), ← Nat.pow_add]
      convert low using 2
      omega
    have quotientHigh : significand / 2 ^ (binaryLength significand - 53) < 2 ^ 53 := by
      rw [Nat.div_lt_iff_lt_mul (Nat.two_pow_pos _), ← Nat.pow_add]
      convert high using 2
      omega
    rw [parts]
    simp only [shiftRounded, Nat.pow_eq]
    split <;> omega

theorem unpack_nearest (negative : Bool) (pos : 0 < significand)
    (isPlace : exponent + binaryLength significand - 53 = place) (low : -1074 ≤ place)
    (high : place ≤ 970) :
    (nearest negative significand exponent).unpack =
      if inUnits significand exponent place = 2 ^ 53 then .finite negative (2 ^ 52) (place + 1)
      else .finite negative (inUnits significand exponent place) place := by
  obtain ⟨unitsLow, unitsHigh⟩ := inUnits_bounds pos isPlace
  have last : lastPlace significand exponent = place := by
    unfold lastPlace
    omega
  have inRange : (place + 1074).toNat * 2 ^ 52 + inUnits significand exponent place ≤
      2046 * 2 ^ 52 := by
    have : (place + 1074).toNat ≤ 2044 := by omega
    omega
  have bits : (nearest negative significand exponent).bits.toNat =
      (if negative then 2 ^ 63 else 0) +
        ((place + 1074).toNat * 2 ^ 52 + inUnits significand exponent place) := by
    simp only [nearest, last, if_neg pos.ne', Nat.pow_eq]
    rw [Nat.min_eq_left (Nat.le_trans inRange (by decide)), UInt64.toNat_ofNat']
    apply Nat.mod_eq_of_lt
    split <;> omega
  rw [unpack, bits]
  -- rounding up to a power of two carries into the exponent
  by_cases carried : inUnits significand exponent place = 2 ^ 53
  · rw [if_pos carried]
    have fields : (place + 1074).toNat * 2 ^ 52 + inUnits significand exponent place =
        ((place + 1074).toNat + 2) * 2 ^ 52 + 0 := by omega
    have back : (((place + 1074).toNat + 2 : Nat) : Int) - 1075 = place + 1 := by omega
    rw [fields, ofPattern_double negative (by omega) (by decide), if_neg (by omega), back,
      Nat.add_zero]
  · rw [if_neg carried]
    have fields : (place + 1074).toNat * 2 ^ 52 + inUnits significand exponent place =
        ((place + 1074).toNat + 1) * 2 ^ 52 + (inUnits significand exponent place - 2 ^ 52) := by
      omega
    have units : 2 ^ 52 + (inUnits significand exponent place - 2 ^ 52) =
        inUnits significand exponent place := by omega
    have back : (((place + 1074).toNat + 1 : Nat) : Int) - 1075 = place := by omega
    rw [fields, ofPattern_double negative (by omega) (by omega), if_neg (by omega), units, back]

theorem amount?_nearest (negative : Bool) (pos : 0 < significand)
    (isPlace : exponent + binaryLength significand - 53 = place) (low : -1074 ≤ place)
    (high : place ≤ 970) :
    (nearest negative significand exponent).unpack.amount? =
      some ((signedBy negative (inUnits significand exponent place) : ℚ) * 2 ^ place) := by
  rw [unpack_nearest negative pos isPlace low high]
  split
  · rename_i carried
    rw [carried, Unpacked.amount?, zpow_add_one₀ two_ne_zero]
    cases negative <;> simp only [signedBy] <;> norm_num <;> ring
  · rfl

/-- A number of at most 53 digits is kept. -/
theorem amount?_nearest_of_short (negative : Bool) (pos : 0 < significand)
    (short : significand < 2 ^ 53) (low : -1021 ≤ exponent) (high : exponent ≤ 970) :
    (nearest negative significand exponent).unpack.amount? =
      some ((signedBy negative significand : ℚ) * 2 ^ exponent) := by
  have digits := binaryLength_le short
  rw [amount?_nearest negative pos rfl (by omega) (by omega)]
  congr 1
  have parts : exponent = (exponent - (exponent + binaryLength significand - 53)).toNat +
      (exponent + binaryLength significand - 53) := by omega
  rw [inUnits, if_pos (by omega)]
  conv_rhs => rw [parts, zpow_add₀ two_ne_zero, zpow_natCast]
  cases negative <;> simp [signedBy, mul_assoc]

theorem nearest_zero (negative : Bool) (exponent : Int) :
    (nearest negative 0 exponent).unpack = .finite negative 0 (-1074) := by
  simp only [nearest, if_true, Nat.add_zero]
  cases negative <;> rfl

/-- An integer of 64 digits is rounded to the nearest multiple of 2048. -/
theorem amount?_ofUInt64 {n : UInt64} (long : 2 ^ 63 ≤ n.toNat) :
    ∃ q, IsNearest n.toNat 2048 q ∧ (ofUInt64 n).unpack.amount? = some ((q * 2048 : Nat) : ℚ) := by
  have digits : binaryLength n.toNat = 64 := binaryLength_eq long n.toNat_lt
  have pos : 0 < n.toNat := Nat.lt_of_lt_of_le (by decide) long
  have units : inUnits n.toNat 0 11 = shiftRounded n.toNat 11 false := rfl
  have isPlace : 0 + (binaryLength n.toNat : Int) - 53 = 11 := by rw [digits]; rfl
  have value := amount?_nearest false pos isPlace (by decide) (by decide)
  refine ⟨shiftRounded n.toNat 11 false, shiftRounded_isNearest n.toNat 11, ?_⟩
  rw [ofUInt64, value, units]
  norm_num [signedBy]

end Binary64

/-! ## Single precision -/

namespace Binary32

/-- The parts of a single precision number are within those of a double. -/
theorem finite_bounds {x : Binary32} {negative : Bool} {significand : Nat} {exponent : Int}
    (parts : x.unpack = .finite negative significand exponent) :
    significand < 2 ^ 53 ∧ -1021 ≤ exponent ∧ exponent ≤ 970 := by
  have fraction : x.bits.toNat % 2 ^ 23 < 2 ^ 23 := Nat.mod_lt _ (by decide)
  have biased : x.bits.toNat / 2 ^ 23 % 2 ^ 8 < 2 ^ 8 := Nat.mod_lt _ (by decide)
  simp only [unpack, Unpacked.ofPattern, Nat.pow_eq] at parts
  split at parts
  · split at parts <;> cases parts
  · split at parts <;> cases parts <;> refine ⟨?_, ?_, ?_⟩ <;> omega

/-- Widening keeps the value of a number, and gives no number one. -/
theorem amount?_widen (x : Binary32) : x.widen.unpack.amount? = x.unpack.amount? := by
  unfold widen
  split
  · rename_i parts
    rw [parts]
    rfl
  · rename_i negative parts
    rw [parts]
    cases negative <;> rfl
  · rename_i negative significand exponent parts
    obtain ⟨short, low, high⟩ := finite_bounds parts
    rw [parts]
    rcases Nat.eq_zero_or_pos significand with rfl | pos
    · rw [Binary64.nearest_zero]
      cases negative <;> simp [Unpacked.amount?, signedBy]
    · exact Binary64.amount?_nearest_of_short negative pos short low high

theorem isFinite_widen (x : Binary32) : x.widen.isFinite = x.unpack.isFinite := by
  rw [Binary64.isFinite, Unpacked.isFinite_eq, amount?_widen, ← Unpacked.isFinite_eq]

/-- Widening makes a missing number of a missing number only. -/
theorem isNaN_widen (x : Binary32) : x.widen.isNaN = true ↔ x.unpack = .nan := by
  have finite := x.isFinite_widen
  unfold Binary64.isFinite at finite
  rw [Binary64.isNaN, decide_eq_true_iff]
  cases parts : x.unpack with
  | nan =>
      rw [widen, parts]
      exact iff_of_true (by decide) rfl
  | infinite negative =>
      rw [widen, parts]
      exact iff_of_false (by cases negative <;> decide) nofun
  | finite negative significand exponent =>
      rw [parts] at finite
      refine iff_of_false (fun missing => ?_) nofun
      rw [missing] at finite
      cases finite

end Binary32

end TableAccess.Number
