/-!
# Milliseconds in 64 bits

Event times and durations are whole milliseconds in the signed 64-bit range.
This module holds the operations on them that can leave the range:

* `Millis.subClamped`: a difference, held inside the range (`toInt_subClamped`),
* `Millis.ofInt?`: an integer as milliseconds, if it fits (`ofInt?_eq_some_iff`).
-/
namespace WindowTally

/-- A point in time (since the epoch) or a duration, in milliseconds. -/
abbrev Millis := Int64

namespace Millis

/-- The earliest representable time. -/
def least : Millis := Int64.minValue

/-- The latest representable time. -/
def greatest : Millis := Int64.maxValue

theorem toInt_least : least.toInt = -0x8000000000000000 := rfl

theorem toInt_greatest : greatest.toInt = 0x7FFFFFFFFFFFFFFF := rfl

/-- `a - b`, or the nearest end of the range when the difference lies outside it. -/
def subClamped (a b : Millis) : Millis := Int64.ofIntClamp (a.toInt - b.toInt)

/-- The milliseconds with value `n`, if `n` is in range. -/
def ofInt? (n : Int) : Option Millis :=
  if -0x8000000000000000 ≤ n ∧ n ≤ 0x7FFFFFFFFFFFFFFF then some (Int64.ofInt n) else none

theorem ofInt?_eq_some_iff {n : Int} {m : Millis} : ofInt? n = some m ↔ m.toInt = n := by
  unfold ofInt?
  constructor
  · intro h
    split at h
    · next hn =>
      cases h
      exact Int64.toInt_ofInt_of_le hn.1 (Int.lt_of_le_of_lt hn.2 (by decide))
    · cases h
  · intro h
    subst h
    rw [if_pos ⟨Int64.le_toInt m, Int.le_of_lt_add_one (Int64.toInt_lt m)⟩, Int64.ofInt_toInt]

theorem ofInt?_toInt (m : Millis) : ofInt? m.toInt = some m :=
  ofInt?_eq_some_iff.2 rfl

/-- A clamped integer has the value itself, or the end of the range it lies beyond. -/
theorem toInt_clamp (n : Int) :
    (Int64.ofIntClamp n).toInt = max (-0x8000000000000000) (min (0x7FFFFFFFFFFFFFFF) n) := by
  unfold Int64.ofIntClamp
  have hlo : Int64.minValue.toInt = -0x8000000000000000 := rfl
  have hhi : Int64.maxValue.toInt = 0x7FFFFFFFFFFFFFFF := rfl
  split
  · split
    · rw [Int64.toInt_ofIntLE]
      omega
    · omega
  · omega

theorem toInt_subClamped (a b : Millis) :
    (subClamped a b).toInt = max (-0x8000000000000000) (min (0x7FFFFFFFFFFFFFFF) (a.toInt - b.toInt)) :=
  toInt_clamp _

end Millis

end WindowTally
