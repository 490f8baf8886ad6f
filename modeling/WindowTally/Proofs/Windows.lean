import Mathlib.Algebra.Group.Nat.Defs
import WindowTally.Window.Hopping

/-!
# The orders of windows, and the windows of a time

Both orders of windows, the one of closing and the one of listing, are strict and
total. `Hopping.windowsAt` lists only windows that contain the time
(`Hopping.contains_of_mem`), in strictly increasing order of their starts
(`Hopping.pairwise_windowsAt`), so each of them once. It lists all of them but one
that starts at the least time (`Hopping.mem_windowsAt_iff`).
-/
namespace WindowTally

/-! ## Milliseconds -/

namespace Millis

/-- Clamping a difference does not move it across a time that is not the least one. -/
theorem le_subClamped_iff {m a b : Millis} (h : least < m) :
    m ≤ subClamped a b ↔ m.toInt + b.toInt ≤ a.toInt := by
  have hm := Int64.toInt_lt m
  rw [Int64.lt_iff_toInt_lt, toInt_least] at h
  rw [Int64.le_iff_toInt_le, toInt_subClamped]
  omega

theorem toInt_max (a b : Millis) : (max a b).toInt = max a.toInt b.toInt := by
  have h : max a b = if a ≤ b then b else a := rfl
  rw [h]
  split
  · next hab => rw [Int64.le_iff_toInt_le] at hab; omega
  · next hab => rw [Int64.le_iff_toInt_le] at hab; omega

theorem le_greatest (m : Millis) : m ≤ greatest := by
  have := Int64.toInt_lt m
  rw [Int64.le_iff_toInt_le, toInt_greatest]
  omega

end Millis

/-! ## Windows -/

namespace Window

theorem eq_of_toInt {a b : Window} (hs : a.start.toInt = b.start.toInt)
    (he : a.stop.toInt = b.stop.toInt) : a = b := by
  cases a
  cases b
  rw [Int64.toInt_inj] at hs he
  rw [mk.injEq]
  exact ⟨hs, he⟩

theorem ListsBefore.irrefl {a : Window} : ¬ a.ListsBefore a := by
  simp only [ListsBefore, Int64.lt_iff_toInt_lt]
  omega

theorem ClosesBefore.irrefl {a : Window} : ¬ a.ClosesBefore a := by
  simp only [ClosesBefore, Int64.lt_iff_toInt_lt]
  omega

theorem closesBefore_trans : ∀ a b c : Window, a.ClosesBefore b → b.ClosesBefore c →
    a.ClosesBefore c :=
  fun _ _ _ => ClosesBefore.trans

theorem eq_of_not_listsBefore {a b : Window} (hab : ¬ a.ListsBefore b) (hba : ¬ b.ListsBefore a) :
    a = b := by
  simp only [ListsBefore, Int64.lt_iff_toInt_lt, ← Int64.toInt_inj] at hab hba
  apply eq_of_toInt <;> omega

theorem eq_of_not_closesBefore (a b : Window) (hab : ¬ a.ClosesBefore b)
    (hba : ¬ b.ClosesBefore a) : a = b := by
  simp only [ClosesBefore, Int64.lt_iff_toInt_lt, ← Int64.toInt_inj] at hab hba
  apply eq_of_toInt <;> omega

/-- A window whose end lies after its start does not end at the least time. -/
theorem least_lt_stop {w : Window} (h : w.start < w.stop) : Millis.least < w.stop := by
  have := Int64.le_toInt w.start
  rw [Int64.lt_iff_toInt_lt] at *
  rw [Millis.toInt_least]
  omega

theorem ofStart?_eq_some_iff {s n : Int} {w : Window} :
    ofStart? s n = some w ↔ w.start.toInt = s ∧ w.stop.toInt = s + n := by
  unfold ofStart?
  constructor
  · intro h
    split at h
    · next a b ha hb =>
      cases h
      exact ⟨Millis.ofInt?_eq_some_iff.1 ha, Millis.ofInt?_eq_some_iff.1 hb⟩
    · cases h
  · rintro ⟨hs, he⟩
    rw [← he, ← hs, Millis.ofInt?_toInt, Millis.ofInt?_toInt]

end Window

/-! ## The windows of a time -/

namespace Hopping

theorem advance_toInt_pos (h : Hopping) : 0 < h.advance.toInt :=
  Int64.lt_iff_toInt_lt.1 h.advance_pos

theorem length_toInt_pos (h : Hopping) : 0 < h.length.toInt := by
  have h1 := h.advance_toInt_pos
  have h2 := Int64.le_iff_toInt_le.1 h.advance_le
  omega

/-- Every start lies after the bound and at or before the last one. -/
theorem mem_startsBetween {h : Hopping} {bound last s : Int} (hs : s ∈ h.startsBetween bound last) :
    bound < s ∧ s ≤ last := by
  have hA := h.advance_toInt_pos
  simp only [startsBetween, List.mem_map, List.mem_reverse, List.mem_range] at hs
  obtain ⟨k, hk, rfl⟩ := hs
  have hk' : (k : Int) ≤ (last - bound - 1) / h.advance.toInt := by omega
  have hmul := (Int.le_ediv_iff_mul_le hA).1 hk'
  have hpos : 0 ≤ (k : Int) * h.advance.toInt := Int.mul_nonneg (by omega) (by omega)
  omega

theorem mem_startsBetween_iff {h : Hopping} {bound last s : Int} :
    s ∈ h.startsBetween bound last ↔ bound < s ∧ s ≤ last ∧ h.advance.toInt ∣ last - s := by
  have hA := h.advance_toInt_pos
  constructor
  · intro hs
    obtain ⟨hbound, hlast⟩ := mem_startsBetween hs
    obtain ⟨k, -, rfl⟩ := List.mem_map.1 hs
    exact ⟨hbound, hlast, k, by rw [Int.mul_comm]; omega⟩
  · rintro ⟨hbound, hlast, k, hk⟩
    -- The start lies `k` advances before the last one, and there is room for as many.
    have hk0 : 0 ≤ k := Int.le_of_mul_le_mul_left (a := h.advance.toInt) (by omega) hA
    have hroom : k ≤ (last - bound - 1) / h.advance.toInt := by
      rw [Int.le_ediv_iff_mul_le hA, Int.mul_comm]
      omega
    rw [startsBetween, List.mem_map]
    refine ⟨k.toNat, ?_, ?_⟩
    · rw [List.mem_reverse, List.mem_range]
      omega
    · rw [Int.toNat_of_nonneg hk0, Int.mul_comm]
      omega

theorem pairwise_startsBetween (h : Hopping) (bound last : Int) :
    (h.startsBetween bound last).Pairwise (· < ·) := by
  have hA := h.advance_toInt_pos
  simp only [startsBetween, List.pairwise_map, List.pairwise_reverse]
  refine List.pairwise_lt_range.imp ?_
  intro j k hjk
  have := Int.mul_lt_mul_of_pos_right (Int.ofNat_lt.2 hjk) hA
  omega

/-- A listed window contains the time. -/
theorem contains_of_mem {h : Hopping} {t : Millis} {w : Window} (hw : w ∈ h.windowsAt t) :
    w.start ≤ t ∧ t < w.stop := by
  have hA := h.advance_toInt_pos
  have hL := h.length_toInt_pos
  obtain ⟨s, hs, hsw⟩ := List.mem_filterMap.1 hw
  obtain ⟨hstart, hstop⟩ := Window.ofStart?_eq_some_iff.1 hsw
  obtain ⟨hbound, hlast⟩ := mem_startsBetween hs
  rw [Millis.toInt_subClamped] at hbound
  have hrem := Int.emod_nonneg t.toInt (Int.ne_of_gt hA)
  have hhi := Int64.toInt_lt t
  rw [lastStart] at hlast
  rw [Int64.le_iff_toInt_le, Int64.lt_iff_toInt_lt]
  omega

/-- The windows of a time are those of the family that contain it, but for one that starts at the
least time. -/
theorem mem_windowsAt_iff {h : Hopping} {t : Millis} {w : Window} :
    w ∈ h.windowsAt t ↔ h.advance.toInt ∣ w.start.toInt ∧
      w.stop.toInt = w.start.toInt + h.length.toInt ∧
      w.start ≤ t ∧ t < w.stop ∧ Millis.least < w.start := by
  have hA := h.advance_toInt_pos
  have hL := h.length_toInt_pos
  have hrem := Int.emod_nonneg t.toInt (Int.ne_of_gt hA)
  have hhi := Int64.toInt_lt t
  have hmultiple : h.advance.toInt ∣ h.lastStart t := Int.dvd_self_sub_emod
  rw [windowsAt, List.mem_filterMap]
  simp only [Window.ofStart?_eq_some_iff, mem_startsBetween_iff, Millis.toInt_subClamped,
    Int64.le_iff_toInt_le, Int64.lt_iff_toInt_lt, Millis.toInt_least]
  constructor
  · rintro ⟨s, ⟨hbound, hlast, hdvd⟩, rfl, hstop⟩
    have hstart : h.advance.toInt ∣ w.start.toInt := (Int.dvd_iff_dvd_of_dvd_sub hdvd).1 hmultiple
    rw [lastStart] at hlast
    refine ⟨hstart, hstop, ?_, ?_, ?_⟩ <;> omega
  · rintro ⟨hstart, hstop, hle, hlt, hleast⟩
    have hlast : w.start.toInt ≤ h.lastStart t := by
      -- A multiple of the advance at or before `t` lies at or before the last one.
      obtain ⟨q, hq⟩ := hstart
      have hdiv := Int.mul_ediv_add_emod t.toInt h.advance.toInt
      have hqt : q ≤ t.toInt / h.advance.toInt := by
        rw [Int.le_ediv_iff_mul_le hA, Int.mul_comm]
        omega
      have hmul := Int.mul_le_mul_of_nonneg_left hqt (Int.le_of_lt hA)
      rw [lastStart]
      omega
    refine ⟨_, ⟨?_, hlast, Int.dvd_sub hmultiple hstart⟩, rfl, hstop⟩
    omega

/-- No time lies in more windows than the length has room for. -/
theorem length_windowsAt_le (h : Hopping) (t : Millis) :
    (h.windowsAt t).length ≤ h.maxWindows := by
  have hA := h.advance_toInt_pos
  have hL := h.length_toInt_pos
  have hrem := Int.emod_nonneg t.toInt (Int.ne_of_gt hA)
  have hlo := Int64.le_toInt t
  have hhi := Int64.toInt_lt t
  refine Nat.le_trans (List.length_filterMap_le _ _) ?_
  rw [startsBetween, List.length_map, List.length_reverse, List.length_range, maxWindows]
  refine Int.toNat_le_toNat (Int.add_le_add_right (Int.ediv_le_ediv hA ?_) 1)
  rw [lastStart, Millis.toInt_subClamped]
  omega

theorem start_lt_stop_of_mem {h : Hopping} {t : Millis} {w : Window} (hw : w ∈ h.windowsAt t) :
    w.start < w.stop := by
  have hc := contains_of_mem hw
  exact Int64.lt_of_le_of_lt hc.1 hc.2

/-! ### Room for the windows -/

theorem hasRoom_iff {h : Hopping} : h.hasRoom = true ↔ 16 * h.maxWindows ≤ 2 ^ 63 - 1 :=
  decide_eq_true_iff

theorem assign?_eq_some_iff {h : Hopping} {t : Millis} {ws : List Window} :
    h.assign? t = some ws ↔ 16 * h.maxWindows ≤ 2 ^ 63 - 1 ∧ h.windowsAt t = ws := by
  rw [assign?, ← hasRoom_iff]
  split <;> simp_all

theorem assign?_eq_none_iff {h : Hopping} {t : Millis} :
    h.assign? t = none ↔ 2 ^ 63 - 1 < 16 * h.maxWindows := by
  rw [assign?, ← Nat.not_le, ← hasRoom_iff]
  split <;> simp_all

/-- The windows of a time are listed by start, each once. -/
theorem pairwise_windowsAt (h : Hopping) (t : Millis) :
    (h.windowsAt t).Pairwise fun a b => a.start < b.start := by
  refine List.Pairwise.filterMap _ ?_ (h.pairwise_startsBetween _ _)
  intro s s' hlt w hw w' hw'
  rw [Int64.lt_iff_toInt_lt, (Window.ofStart?_eq_some_iff.1 hw).1,
    (Window.ofStart?_eq_some_iff.1 hw').1]
  exact hlt

theorem nodup_windowsAt (h : Hopping) (t : Millis) : (h.windowsAt t).Nodup := by
  refine (h.pairwise_windowsAt t).imp ?_
  rintro a b hab rfl
  exact Int64.lt_irrefl hab

end Hopping

end WindowTally
