import Mathlib.Data.Rat.Floor
import WindowTally.Proofs.WindowStarts

/-!
# How many windows a time lies in

The starts of the windows of a time are counted back from the last one, one advance at a
time, while they lie within one length of it. How many there are depends on how far the time
lies behind the last start:

* `Hopping.length_windowsAt`: with length `L`, advance `A` and `r` milliseconds behind the last
  start there are `(L - 1 - r) / A + 1` windows, unless the range of times cuts some off,
* `ceil_ediv`, `count_ediv`: that is `L / A` rounded up while `r` is less than the remainder of
  `L`, and `L / A` rounded down from there on,
* `Hopping.length_assigned_exact`: what this comes to for the windows that settings describe, where
  there is room to list them.

`Hopping.maxWindows` is the quotient rounded up. It bounds the number at every time, also where
windows are cut off, and can be computed in 64-bit words (`Hopping.exists_capacity`).
-/
namespace WindowTally

/-! ## Quotients -/

section

variable {L A r : Int}

/-- Counting down from `L - 1 - r` in steps of `A`. -/
theorem count_ediv (hA : 0 < A) (hr : 0 ≤ r) (hrA : r < A) :
    (L - 1 - r) / A + 1 = L / A + if r < L % A then 1 else 0 := by
  have hsplit := Int.mul_ediv_add_emod L A
  have hlo := Int.emod_nonneg L (Int.ne_of_gt hA)
  have hhi := Int.emod_lt_of_pos L hA
  have hcount : L - 1 - r = L % A - 1 - r + A * (L / A) := by omega
  rw [hcount, Int.add_mul_ediv_left _ _ (Int.ne_of_gt hA)]
  split
  · rw [Int.ediv_eq_zero_of_lt (by omega) (by omega)]
    omega
  · have hback : L % A - 1 - r = L % A - 1 - r + A + A * -1 := by omega
    rw [hback, Int.add_mul_ediv_left _ _ (Int.ne_of_gt hA),
      Int.ediv_eq_zero_of_lt (by omega) (by omega)]
    omega

theorem floor_ediv (hA : 0 < A) : ⌊(L : ℚ) / A⌋ = L / A := by
  obtain ⟨n, rfl⟩ := Int.eq_ofNat_of_zero_le (Int.le_of_lt hA)
  exact Rat.floor_intCast_div_natCast L n

/-- The quotient rounded up, by division alone. -/
theorem ceil_ediv (hA : 0 < A) : ⌈(L : ℚ) / A⌉ = (L - 1) / A + 1 := by
  have hA' : (0 : ℚ) < A := Int.cast_pos.2 hA
  have hbelow := Int.ediv_mul_le (L - 1) (Int.ne_of_gt hA)
  have habove := Int.lt_ediv_add_one_mul_self (L - 1) hA
  rw [Int.ceil_eq_iff, lt_div_iff₀ hA', div_le_iff₀ hA']
  constructor
  · have hlt : ((L - 1) / A) * A < L := by omega
    push_cast
    rw [add_sub_cancel_right]
    exact_mod_cast hlt
  · have hle : L ≤ ((L - 1) / A + 1) * A := by omega
    exact_mod_cast hle

/-- Whether the count comes to the quotient rounded up or rounded down. -/
theorem count_eq_ceil_iff (hA : 0 < A) (hr : 0 ≤ r) (hrA : r < A) :
    ((L - 1 - r) / A + 1 = ⌈(L : ℚ) / A⌉ ↔ A ∣ L ∨ r < L % A) ∧
    (¬ (A ∣ L ∨ r < L % A) → (L - 1 - r) / A + 1 = ⌊(L : ℚ) / A⌋) := by
  have hlo := Int.emod_nonneg L (Int.ne_of_gt hA)
  have hceil := count_ediv (L := L) hA (Int.le_refl 0) hA
  rw [Int.sub_zero] at hceil
  rw [ceil_ediv hA, floor_ediv hA, count_ediv hA hr hrA, hceil, Int.dvd_iff_emod_eq_zero]
  constructor
  · split <;> split <;> omega
  · intro hnot
    rw [if_neg fun hlt => hnot (.inr hlt), Int.add_zero]

end

namespace Hopping

section

variable {h : Hopping} {t : Millis}

/-- Where the range of times cuts no window off, each start has one. -/
theorem length_windowsAt (hlo : -2 ^ 63 + h.length.toInt ≤ t.toInt)
    (hhi : t.toInt ≤ 2 ^ 63 - 1 - h.length.toInt) : ((h.windowsAt t).length : Int) =
      (h.length.toInt - 1 - t.toInt % h.advance.toInt) / h.advance.toInt + 1 := by
  have hA := h.advance_toInt_pos
  have hAL := Int64.le_iff_toInt_le.1 h.advance_le
  have hlt := Int.emod_lt_of_pos t.toInt hA
  have hrem := Int.emod_nonneg t.toInt (Int.ne_of_gt hA)
  have hbound : (Millis.subClamped t h.length).toInt = t.toInt - h.length.toInt := by
    have hgreatest := Int64.toInt_lt t
    rw [Millis.toInt_subClamped]
    omega
  have hall : ∀ s ∈ h.startsBetween (Millis.subClamped t h.length).toInt (h.lastStart t),
      (Window.ofStart? s h.length.toInt).isSome := by
    intro s hs
    obtain ⟨hafter, hbefore⟩ := mem_startsBetween hs
    rw [hbound] at hafter
    rw [lastStart] at hbefore
    obtain ⟨start, hstart⟩ := Millis.exists_toInt (n := s) (by omega) (by omega)
    obtain ⟨stop, hstop⟩ := Millis.exists_toInt (n := s + h.length.toInt) (by omega) (by omega)
    exact Option.isSome_iff_exists.2 ⟨⟨start, stop⟩, Window.ofStart?_eq_some_iff.2 ⟨hstart, hstop⟩⟩
  have hsteps : h.lastStart t - (Millis.subClamped t h.length).toInt - 1 =
      h.length.toInt - 1 - t.toInt % h.advance.toInt := by
    rw [hbound, lastStart]
    omega
  have hnonneg : 0 ≤ (h.length.toInt - 1 - t.toInt % h.advance.toInt) / h.advance.toInt :=
    Int.ediv_nonneg (by omega) (Int.le_of_lt hA)
  rw [windowsAt, List.filterMap_length_eq_length.2 hall, startsBetween, List.length_map,
    List.length_reverse, List.length_range, hsteps]
  omega

end

/-! ## The most windows -/

/-- The most windows one time can lie in, step by step in 64-bit words, unless a step overflows. -/
def capacity? (h : Hopping) : Option Millis := do
  let less ← Millis.ofInt? (h.length.toInt - 1)
  let quotient ← Millis.ofInt? (less.toInt.tdiv h.advance.toInt)
  Millis.ofInt? (quotient.toInt + 1)

theorem maxWindows_eq_ceil (h : Hopping) :
    (h.maxWindows : Int) = ⌈(h.length.toInt : ℚ) / h.advance.toInt⌉ := by
  have hL := h.length_toInt_pos
  have hA := h.advance_toInt_pos
  have hnonneg : 0 ≤ (h.length.toInt - 1) / h.advance.toInt :=
    Int.ediv_nonneg (by omega) (Int.le_of_lt hA)
  rw [ceil_ediv hA, maxWindows]
  omega

/-- No step overflows. -/
theorem exists_capacity (h : Hopping) :
    ∃ n, h.capacity? = some n ∧ n.toInt = h.maxWindows := by
  have hL := h.length_toInt_pos
  have hA := h.advance_toInt_pos
  have hgreatest := Int64.toInt_lt h.length
  have hmost := h.maxWindows_lt
  have hnonneg : 0 ≤ (h.length.toInt - 1) / h.advance.toInt :=
    Int.ediv_nonneg (by omega) (Int.le_of_lt hA)
  have hquotient : ((h.length.toInt - 1) / h.advance.toInt) + 1 = h.maxWindows := by
    rw [maxWindows]
    omega
  obtain ⟨less, hless⟩ := Millis.exists_toInt (n := h.length.toInt - 1) (by omega) (by omega)
  obtain ⟨quotient, hq⟩ := Millis.exists_toInt (n := (h.length.toInt - 1) / h.advance.toInt)
    (by omega) (by omega)
  obtain ⟨most, hm⟩ := Millis.exists_toInt (n := (h.maxWindows : Int)) (by omega) (by omega)
  refine ⟨most, ?_, hm⟩
  have htdiv : less.toInt.tdiv h.advance.toInt = (h.length.toInt - 1) / h.advance.toInt := by
    rw [hless, Int.tdiv_eq_ediv_of_nonneg (by omega)]
  simp only [capacity?, Option.bind_eq_bind, Millis.ofInt?_eq_some_iff.2 hless, Option.bind_some,
    htdiv, Millis.ofInt?_eq_some_iff.2 hq, hq, hquotient, Millis.ofInt?_eq_some_iff.2 hm]

/-- No time has windows listed just when there is no room for the most that there can be. Where there
is room, a time one window length inside the range of times and `r` milliseconds behind the last start
has `(L - 1 - r) / A + 1` windows: `L / A` rounded up if `A` divides `L` or if `r` is less than the
remainder of `L`, and otherwise rounded down. At any time that can be aligned there are no more than
`L / A` rounded up, and that number is computed without overflow. -/
theorem length_assigned_exact {length advance : Millis} {h : Hopping}
    (hmake : make length advance = .ok h) :
    h.length = length ∧ (h.advance = if advance ≤ 0 then length else advance) ∧
    (∀ t : Millis, h.assign? t = none ↔ 2 ^ 63 - 1 < 16 * h.maxWindows) ∧
    (∀ t : Millis, -2 ^ 63 + length.toInt ≤ t.toInt → t.toInt ≤ 2 ^ 63 - 1 - length.toInt →
      h.descent? t = h.assign? t ∧ ∀ ws, h.assign? t = some ws →
        (ws.length : Int) =
          (length.toInt - 1 - t.toInt % h.advance.toInt) / h.advance.toInt + 1 ∧
        ((ws.length : Int) = ⌈(length.toInt : ℚ) / h.advance.toInt⌉ ↔
          h.advance.toInt ∣ length.toInt ∨
            t.toInt % h.advance.toInt < length.toInt % h.advance.toInt) ∧
        (¬ (h.advance.toInt ∣ length.toInt ∨
            t.toInt % h.advance.toInt < length.toInt % h.advance.toInt) →
          (ws.length : Int) = ⌊(length.toInt : ℚ) / h.advance.toInt⌋)) ∧
    (∀ t : Millis, -2 ^ 63 ≤ t.toInt - t.toInt % h.advance.toInt →
      h.descent? t = h.assign? t ∧ ∀ ws, h.assign? t = some ws → ws.length ≤ h.maxWindows) ∧
    (h.maxWindows : Int) = ⌈(length.toInt : ℚ) / h.advance.toInt⌉ ∧
    ∃ n, h.capacity? = some n ∧ n.toInt = h.maxWindows := by
  obtain ⟨rfl, hadvance⟩ := eq_of_make hmake
  refine ⟨rfl, hadvance, fun _ => assign?_eq_none_iff, fun t hlo hhi => ?_, fun t halign => ?_,
    h.maxWindows_eq_ceil, h.exists_capacity⟩
  · refine ⟨descent?_eq (Int.le_of_lt (lt_aligned hlo)), fun ws hws => ?_⟩
    obtain ⟨-, rfl⟩ := assign?_eq_some_iff.1 hws
    have hA := h.advance_toInt_pos
    have hrem := Int.emod_nonneg t.toInt (Int.ne_of_gt hA)
    obtain ⟨hceil, hfloor⟩ := count_eq_ceil_iff (L := h.length.toInt) hA hrem
      (Int.emod_lt_of_pos t.toInt hA)
    rw [length_windowsAt hlo hhi]
    exact ⟨rfl, hceil, hfloor⟩
  · refine ⟨descent?_eq halign, fun ws hws => ?_⟩
    obtain ⟨-, rfl⟩ := assign?_eq_some_iff.1 hws
    exact h.length_windowsAt_le t

/-- The theorem for windows of 5 ms in steps of 2, before the epoch: three of them right at a start,
and two of them a millisecond later. -/
theorem length_assigned_exact_before_epoch : ∃ h, make 5 2 = .ok h ∧ h.maxWindows = 3 ∧
    (∃ ws, h.assign? (-8) = some ws ∧ ws.length = 3) ∧
    ∃ ws, h.assign? (-7) = some ws ∧ ws.length = 2 := by
  obtain ⟨h, hmake⟩ : ∃ h, make 5 2 = .ok h := ⟨_, rfl⟩
  obtain ⟨-, hadvance, hnone, hall, -, hmost, -⟩ := length_assigned_exact hmake
  replace hadvance : h.advance = 2 := hadvance
  have hfive : (5 : Millis).toInt = 5 := rfl
  have htwo : (2 : Millis).toInt = 2 := rfl
  obtain ⟨-, hstart⟩ := hall (-8) (by decide) (by decide)
  obtain ⟨-, hlater⟩ := hall (-7) (by decide) (by decide)
  rw [hadvance] at hmost hstart hlater
  rw [hfive, htwo, ceil_ediv (by decide)] at hmost
  have hthree : h.maxWindows = 3 := Int.ofNat_inj.1 (hmost.trans (by decide))
  have hsome (t : Millis) : ∃ ws, h.assign? t = some ws := by
    refine Option.ne_none_iff_exists'.1 fun ht => ?_
    have htoo := (hnone t).1 ht
    omega
  obtain ⟨starting, hstarting⟩ := hsome (-8)
  obtain ⟨later, hafter⟩ := hsome (-7)
  refine ⟨h, hmake, hthree, ⟨starting, hstarting, ?_⟩, later, hafter, ?_⟩
  · exact Int.ofNat_inj.1 ((hstart _ hstarting).1.trans (by decide))
  · exact Int.ofNat_inj.1 ((hlater _ hafter).1.trans (by decide))

/-- The greatest length in steps of 1: the number of windows of a time is computed, and at no time are
they listed. -/
theorem greatest_number_unlisted : ∃ h, make Millis.greatest 1 = .ok h ∧
    h.maxWindows = 2 ^ 63 - 1 ∧ (∃ n, h.capacity? = some n ∧ n.toInt = h.maxWindows) ∧
    -2 ^ 63 + Millis.greatest.toInt ≤ (0 : Millis).toInt ∧
    (0 : Millis).toInt ≤ 2 ^ 63 - 1 - Millis.greatest.toInt ∧ ∀ t, h.assign? t = none := by
  have hmade : (make Millis.greatest 1).toOption.map (·.maxWindows) = some (2 ^ 63 - 1) := by
    decide +kernel
  obtain ⟨h, hmake, hmost⟩ := exists_of_make hmade
  refine ⟨h, hmake, hmost, h.exists_capacity, by decide, by decide, fun t => ?_⟩
  rw [assign?_eq_none_iff, hmost]
  decide

end Hopping

end WindowTally
