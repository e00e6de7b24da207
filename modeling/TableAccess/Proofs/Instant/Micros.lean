import TableAccess.Value.Reading

/-!
# Instants of time stamps

A time stamp counts microseconds, before the epoch as well as after it. The instant that it names
consists of whole seconds, rounded down, and of the microseconds after them, so that nothing is
lost: the stamp is had back from its instant, and stamps are in the order of their instants. The
stamps that name an instant are those of the years from -262143 to 262142.
-/

namespace TableAccess

namespace Instant

/-- An instant is before another one if its second is, or its nanosecond within the same second. -/
instance : LT Instant where
  lt i j := i.seconds < j.seconds ∨ i.seconds = j.seconds ∧ i.nanos < j.nanos

variable {i j : Instant} {n m : Int}

theorem lt_iff : i < j ↔ i.seconds < j.seconds ∨ i.seconds = j.seconds ∧ i.nanos < j.nanos :=
  Iff.rfl

def yearStart (year : Int) : Int := Calendar.dayNumber year 1 1 * 86400 * 1000000

theorem leastMicros_eq : leastMicros = yearStart (-262143) := by
  decide

theorem greatestMicros_eq : greatestMicros = yearStart 262143 - 1 := by
  decide

/-- A count of microseconds within the years of the calendar. -/
def InCalendar (n : Int) : Prop := yearStart (-262143) ≤ n ∧ n < yearStart 262143

theorem inCalendar_iff : InCalendar n ↔ leastMicros ≤ n ∧ n ≤ greatestMicros := by
  rw [leastMicros_eq, greatestMicros_eq, InCalendar]
  omega

/-- The instant is that of a count: its whole seconds and the microseconds after them make up the
count, also where it is negative. -/
def Counts (i : Instant) (n : Int) : Prop :=
  ∃ micros : Nat, micros < 1000000 ∧ i.nanos = micros * 1000 ∧
    i.seconds * 1000000 + micros = n

theorem Counts.micros_eq (counts : i.Counts n) : i.micros = n := by
  obtain ⟨count, _, nanos, sum⟩ := counts
  rw [micros, nanos, Nat.mul_div_cancel count (by decide), sum]

theorem Counts.lt_iff (counts : i.Counts n) (others : j.Counts m) : i < j ↔ n < m := by
  obtain ⟨micros, below, nanos, rfl⟩ := counts
  obtain ⟨later, belowOther, nanosOther, rfl⟩ := others
  rw [Instant.lt_iff, nanos, nanosOther]
  omega

theorem ofMicros?_eq_none_iff : ofMicros? n = none ↔ ¬ InCalendar n := by
  rw [inCalendar_iff, ofMicros?]
  split <;> simp_all

/-- A count within the calendar names the one instant that it is the count of. -/
theorem exists_ofMicros? (within : InCalendar n) : ∃ i, ofMicros? n = some i ∧ i.Counts n := by
  refine ⟨_, if_pos (inCalendar_iff.mp within), (n % 1000000).toNat, ?_, rfl, ?_⟩
  · omega
  · dsimp only
    omega

theorem counts_of_ofMicros? (found : ofMicros? n = some i) : InCalendar n ∧ i.Counts n := by
  by_cases within : InCalendar n
  · obtain ⟨other, named, counts⟩ := exists_ofMicros? within
    obtain rfl : other = i := Option.some.inj (named.symm.trans found)
    exact ⟨within, counts⟩
  · rw [ofMicros?_eq_none_iff.mpr within] at found
    cases found

end Instant

namespace Value

open Instant (InCalendar)

/-- Where a count is read as an instant: as a time stamp, and in the same way as an integer of 64
bits or of 32 bits. -/
theorem asInstant_timestamp (n : Int64) :
    (timestamp n).asInstant = Instant.ofMicros? n.toInt ∧
      (long n).asInstant = (timestamp n).asInstant ∧
      ∀ k : Int32, k.toInt64 = n → (int k).asInstant = (timestamp n).asInstant := by
  refine ⟨rfl, rfl, ?_⟩
  rintro k rfl
  rw [asInstant, asInstant, Int32.toInt_toInt64]

theorem ofInstant_of_counts {i : Instant} {n : Int64} (counts : i.Counts n.toInt) :
    ofInstant i = timestamp n := by
  rw [ofInstant, counts.micros_eq, Int64.ofInt_toInt]

/-- A time stamp names an instant exactly if it lies within the years of the calendar. The instant
gives the stamp back, integers with the same count are read as the same instant, its seconds and
microseconds make up the count, and later stamps are later instants. -/
theorem timestamps_keep_instants (n : Int64) :
    ((timestamp n).asInstant = none ↔ ¬ InCalendar n.toInt) ∧
      (long n).asInstant = (timestamp n).asInstant ∧
      (∀ k : Int32, k.toInt64 = n → (int k).asInstant = (timestamp n).asInstant) ∧
      ∀ d, (timestamp n).asInstant = some d →
        ofInstant d = timestamp n ∧ d.Counts n.toInt ∧
          ∀ m e, (timestamp m).asInstant = some e → (d < e ↔ n < m) := by
  obtain ⟨_, long, int⟩ := asInstant_timestamp n
  refine ⟨Instant.ofMicros?_eq_none_iff, long, int, fun d found => ?_⟩
  obtain ⟨_, counts⟩ := Instant.counts_of_ofMicros? found
  refine ⟨ofInstant_of_counts counts, counts, fun m e later => ?_⟩
  obtain ⟨_, others⟩ := Instant.counts_of_ofMicros? later
  rw [counts.lt_iff others, Int64.lt_iff_toInt_lt]

/-- The microsecond before the epoch belongs to the second before it, and comes before the epoch. -/
theorem timestamps_keep_instants_before_epoch :
    (timestamp (-1)).asInstant = some ⟨-1, 999999000⟩ ∧
      ofInstant ⟨-1, 999999000⟩ = timestamp (-1) ∧
      (⟨-1, 999999000⟩ : Instant) < ⟨0, 0⟩ := by
  have found : (timestamp (-1)).asInstant = some ⟨-1, 999999000⟩ := by decide
  have epoch : (timestamp 0).asInstant = some ⟨0, 0⟩ := by decide
  obtain ⟨_, _, _, keeps⟩ := timestamps_keep_instants (-1)
  obtain ⟨back, _, ordered⟩ := keeps _ found
  exact ⟨found, back, (ordered 0 _ epoch).mpr (by decide)⟩

end Value

end TableAccess
