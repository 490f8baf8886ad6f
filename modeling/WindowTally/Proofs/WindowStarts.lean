import Mathlib.Algebra.Group.Int.Defs
import Mathlib.Algebra.Group.Nat.Defs
import WindowTally.Proofs.Windows

/-!
# The windows of a time, start by start

`Hopping.windowsAt` says at once which starts are taken. A machine with 64-bit words makes
room for the most windows that there can be and finds them one by one: it aligns the time,
goes down by one advance after the other, and skips the starts whose end does not fit
(`Hopping.downFrom`). It comes to `Hopping.assign?` whenever the aligned time fits into a
word (`Hopping.descent?_eq`): besides that and the room, nothing in it can fail.

If there is room, the windows of a time one window length above the least time, or later, are
exactly those of the family that contain it (`Hopping.assigned_exact`). If there is none,
nothing is listed, not even for a time that lies in one window only
(`Hopping.no_room_for_one`). For earlier times the bound on the starts stands still at the
least time, which it leaves out. So a window that starts there is never listed, and the
windows of these times are complete just when there is room and none starts there
(`Hopping.assigned_complete_iff`).
-/
namespace WindowTally

/-- Every integer of the range is the value of a time. -/
theorem Millis.exists_toInt {n : Int} (hlo : -2 ^ 63 ≤ n) (hhi : n < 2 ^ 63) :
    ∃ m : Millis, m.toInt = n :=
  ⟨Int64.ofInt n, Int64.toInt_ofInt_of_le hlo hhi⟩

namespace Hopping

/-! ## Starts, from the last one down -/

section
variable (h : Hopping) {bound last : Int}

theorem startsBetween_of_le (hle : last ≤ bound) : h.startsBetween bound last = [] := by
  refine List.eq_nil_iff_forall_not_mem.2 fun s hs => ?_
  have hs := mem_startsBetween hs
  omega

/-- The last start comes after those up to one advance before it. -/
theorem startsBetween_of_lt (hlt : bound < last) :
    h.startsBetween bound last = h.startsBetween bound (last - h.advance.toInt) ++ [last] := by
  have hA := h.advance_toInt_pos
  have hsteps : ((last - bound - 1) / h.advance.toInt + 1).toNat =
      ((last - h.advance.toInt - bound - 1) / h.advance.toInt + 1).toNat + 1 := by
    have hless : last - h.advance.toInt - bound - 1 = last - bound - 1 - h.advance.toInt := by omega
    have hnonneg : 0 ≤ (last - bound - 1) / h.advance.toInt :=
      Int.ediv_nonneg (by omega) (Int.le_of_lt hA)
    rw [hless, Int.sub_ediv_of_dvd _ (Int.dvd_refl _), Int.ediv_self (Int.ne_of_gt hA)]
    omega
  rw [startsBetween, hsteps, List.range_succ_eq_map, List.reverse_cons, List.map_append,
    ← List.map_reverse, List.map_map, startsBetween]
  congr 1
  · refine List.map_congr_left fun k _ => ?_
    have hsucc : ((k + 1 : Nat) : Int) * h.advance.toInt =
        k * h.advance.toInt + h.advance.toInt := by
      rw [Int.natCast_succ, Int.add_mul, Int.one_mul]
    simp only [Function.comp_apply, Nat.succ_eq_add_one, hsucc]
    omega
  · simp

end

/-! ## Going down in 64-bit words -/

/-- The windows from `start` down to `bound`, the last one first. A window is left out if its end is
not representable, and the descent ends before a start that is not. -/
def downFrom (h : Hopping) (bound start : Millis) : List Window :=
  if bound < start then
    match _hprevious : Millis.ofInt? (start.toInt - h.advance.toInt) with
    | some previous =>
      (Window.ofStart? start.toInt h.length.toInt).toList ++ h.downFrom bound previous
    | none => (Window.ofStart? start.toInt h.length.toInt).toList
  else []
termination_by (start.toInt - bound.toInt).toNat
decreasing_by
  have hA := h.advance_toInt_pos
  have hprevious := Millis.ofInt?_eq_some_iff.1 _hprevious
  rw [Int64.lt_iff_toInt_lt] at *
  omega

/-- The windows of a time as a machine with 64-bit words finds them, unless there is no room for
them or the aligned time does not fit into a word. -/
def descent? (h : Hopping) (t : Millis) : Option (List Window) :=
  if h.hasRoom then
    (Millis.ofInt? (t.toInt - t.toInt % h.advance.toInt)).map fun start =>
      (h.downFrom (Millis.subClamped t h.length) start).reverse
  else none

/-- The descent takes the starts after the bound. -/
theorem reverse_downFrom (h : Hopping) (bound start : Millis) : (h.downFrom bound start).reverse =
    (h.startsBetween bound.toInt start.toInt).filterMap
      fun s => Window.ofStart? s h.length.toInt := by
  have hone (s : Int) : (Window.ofStart? s h.length.toInt).toList.reverse =
      [s].filterMap fun s => Window.ofStart? s h.length.toInt := by
    cases hs : Window.ofStart? s h.length.toInt <;> simp [hs]
  fun_induction downFrom h bound start with
  | case1 start hlt previous hprevious ih =>
    rw [h.startsBetween_of_lt (Int64.lt_iff_toInt_lt.1 hlt), List.filterMap_append, ← hone,
      ← Millis.ofInt?_eq_some_iff.1 hprevious, ← ih, List.reverse_append]
  | case2 start hlt hnone =>
    -- A start that is not representable lies below every bound.
    have hbefore : start.toInt - h.advance.toInt ≤ bound.toInt := by
      refine Int.not_lt.1 fun hafter => ?_
      have hA := h.advance_toInt_pos
      have hlo := Int64.le_toInt bound
      have hhi := Int64.toInt_lt start
      obtain ⟨m, hm⟩ := Millis.exists_toInt (n := start.toInt - h.advance.toInt) (by omega) (by omega)
      rw [Millis.ofInt?_eq_some_iff.2 hm] at hnone
      cases hnone
    rw [h.startsBetween_of_lt (Int64.lt_iff_toInt_lt.1 hlt), h.startsBetween_of_le hbefore,
      List.nil_append, hone]
  | case3 start hle =>
    rw [h.startsBetween_of_le (Int64.le_iff_toInt_le.1 (Int64.not_lt.1 hle))]
    rfl

/-- What is found are the windows of the time, if there is room, unless the time cannot be aligned. -/
theorem descent?_eq {h : Hopping} {t : Millis}
    (halign : -2 ^ 63 ≤ t.toInt - t.toInt % h.advance.toInt) : h.descent? t = h.assign? t := by
  have hrem := Int.emod_nonneg t.toInt (Int.ne_of_gt h.advance_toInt_pos)
  have hhi := Int64.toInt_lt t
  obtain ⟨start, hstart⟩ := Millis.exists_toInt halign (by omega)
  rw [descent?, Millis.ofInt?_eq_some_iff.2 hstart, Option.map_some, reverse_downFrom, hstart]
  rfl

/-! ## Which windows there are -/

section
variable {h : Hopping} {t : Millis}

/-- The starts of the windows of a time, over the unbounded integers. -/
theorem exists_start_iff {s : Int} :
    (∃ w ∈ h.windowsAt t, w.start.toInt = s ∧ w.stop.toInt = s + h.length.toInt) ↔
      h.advance.toInt ∣ s ∧ -2 ^ 63 < s ∧ s ≤ t.toInt ∧ t.toInt < s + h.length.toInt ∧
        s + h.length.toInt ≤ 2 ^ 63 - 1 := by
  simp only [mem_windowsAt_iff, Int64.le_iff_toInt_le, Int64.lt_iff_toInt_lt, Millis.toInt_least]
  constructor
  · rintro ⟨w, ⟨hdvd, -, hle, hlt, hleast⟩, rfl, hstop⟩
    have hhi := Int64.toInt_lt w.stop
    exact ⟨hdvd, by omega, hle, by omega, by omega⟩
  · rintro ⟨hdvd, hleast, hle, hlt, hfits⟩
    have hL := h.length_toInt_pos
    obtain ⟨start, rfl⟩ := Millis.exists_toInt (n := s) (by omega) (by omega)
    obtain ⟨stop, hstop⟩ := Millis.exists_toInt (n := start.toInt + h.length.toInt) (by omega) (by omega)
    exact ⟨⟨start, stop⟩, ⟨hdvd, hstop, hle, hstop ▸ hlt, hleast⟩, rfl, hstop⟩

theorem stop_of_mem {w : Window} (hw : w ∈ h.windowsAt t) :
    w.stop.toInt = w.start.toInt + h.length.toInt :=
  (mem_windowsAt_iff.1 hw).2.1

/-- One window length above the least time, or higher, a time is aligned above the least time. -/
theorem lt_aligned (ht : -2 ^ 63 + h.length.toInt ≤ t.toInt) :
    -2 ^ 63 < t.toInt - t.toInt % h.advance.toInt := by
  have hrem := Int.emod_lt_of_pos t.toInt h.advance_toInt_pos
  have hAL := Int64.le_iff_toInt_le.1 h.advance_le
  omega

/-- A time has a window just when some start of the family has one that contains it. -/
theorem windowsAt_ne_nil_iff : h.windowsAt t ≠ [] ↔
    ∃ s : Int, h.advance.toInt ∣ s ∧ -2 ^ 63 < s ∧ s ≤ t.toInt ∧ t.toInt < s + h.length.toInt ∧
      s + h.length.toInt ≤ 2 ^ 63 - 1 := by
  simp only [← exists_start_iff]
  constructor
  · intro hsome
    obtain ⟨w, hw⟩ := List.exists_mem_of_ne_nil _ hsome
    exact ⟨_, w, hw, rfl, stop_of_mem hw⟩
  · rintro ⟨s, w, hw, -⟩
    exact List.ne_nil_of_mem hw

/-- A time that lies at least one length inside the range lies in a window. -/
theorem windowsAt_ne_nil (hlo : -2 ^ 63 + h.length.toInt ≤ t.toInt)
    (hhi : t.toInt ≤ 2 ^ 63 - 1 - h.length.toInt) : h.windowsAt t ≠ [] := by
  have hA := h.advance_toInt_pos
  have hAL := Int64.le_iff_toInt_le.1 h.advance_le
  have hrem := Int.emod_nonneg t.toInt (Int.ne_of_gt hA)
  have hlt := Int.emod_lt_of_pos t.toInt hA
  exact windowsAt_ne_nil_iff.2
    ⟨_, Int.dvd_self_sub_emod, lt_aligned hlo, by omega, by omega, by omega⟩

/-- The length of a family is the one it is made with, and so is its advance if that is positive. -/
theorem eq_of_make {length advance : Millis} (hmake : make length advance = .ok h) :
    h.length = length ∧ h.advance = if advance ≤ 0 then length else advance := by
  unfold make at hmake
  split at hmake
  · cases hmake
  · split at hmake
    · next hadvance =>
      cases hmake
      exact ⟨rfl, (if_pos hadvance).symm⟩
    · next hadvance =>
      split at hmake
      · cases hmake
      · cases hmake
        exact ⟨rfl, (if_neg hadvance).symm⟩

end

/-- What can be told of a family is told of the one that is made. -/
theorem exists_of_make {length advance : Millis} {α : Type} {look : Hopping → α} {x : α}
    (h : (make length advance).toOption.map look = some x) :
    ∃ h, make length advance = .ok h ∧ look h = x := by
  cases hmake : make length advance with
  | error fault =>
    rw [hmake] at h
    cases h
  | ok made =>
    rw [hmake] at h
    exact ⟨made, rfl, Option.some.inj h⟩

/-- The most windows that one time can lie in are no more than a length has milliseconds. -/
theorem maxWindows_lt (h : Hopping) : h.maxWindows < 2 ^ 63 := by
  have hL := Int64.toInt_lt h.length
  have hquotient := Int.ediv_le_self h.advance.toInt (a := h.length.toInt - 1)
    (Int.sub_nonneg.2 h.length_toInt_pos)
  rw [maxWindows]
  omega

/-- One window length above the least time, or later, nothing but room can be wanting for the windows
of a time, and it is if the most windows that there can be take up more than `2 ^ 63 - 1` bytes. What
is listed otherwise are the windows of the family that contain the time and have a representable end:
all of them, each once, by start. -/
theorem assigned_exact {length advance : Millis} {h : Hopping} (hmake : make length advance = .ok h)
    {t : Millis} (ht : -2 ^ 63 + length.toInt ≤ t.toInt) :
    h.length = length ∧ (h.advance = if advance ≤ 0 then length else advance) ∧
    h.maxWindows < 2 ^ 63 ∧ h.descent? t = h.assign? t ∧
    (h.assign? t = none ↔ 2 ^ 63 - 1 < 16 * h.maxWindows) ∧
    ∀ ws, h.assign? t = some ws →
      ws.length ≤ h.maxWindows ∧ ws.Pairwise (fun v w => v.start < w.start) ∧ ws.Nodup ∧
      (∀ w ∈ ws, w.stop.toInt = w.start.toInt + length.toInt) ∧
      ∀ s : Int, (∃ w ∈ ws, w.start.toInt = s ∧ w.stop.toInt = s + length.toInt) ↔
        h.advance.toInt ∣ s ∧ s ≤ t.toInt ∧ t.toInt < s + length.toInt ∧
          s + length.toInt ≤ 2 ^ 63 - 1 := by
  obtain ⟨rfl, hadvance⟩ := eq_of_make hmake
  have halign := lt_aligned ht
  refine ⟨rfl, hadvance, h.maxWindows_lt, descent?_eq (Int.le_of_lt halign), assign?_eq_none_iff,
    fun ws hws => ?_⟩
  obtain ⟨-, rfl⟩ := assign?_eq_some_iff.1 hws
  refine ⟨h.length_windowsAt_le t, h.pairwise_windowsAt t, h.nodup_windowsAt t,
    fun w hw => stop_of_mem hw, fun s => ?_⟩
  rw [exists_start_iff]
  constructor
  · rintro ⟨hdvd, -, hrest⟩
    exact ⟨hdvd, hrest⟩
  · rintro ⟨hdvd, hle, hlt, hfits⟩
    exact ⟨hdvd, by omega, hle, hlt, hfits⟩

/-- The theorem for an advance that does not divide the length, at a time so late that one of its two
windows is not representable. -/
theorem assigned_exact_near_greatest : ∃ h, make 5 2 = .ok h ∧
    h.assign? 9223372036854775805 = some [⟨9223372036854775802, 9223372036854775807⟩] ∧
    h.descent? 9223372036854775805 = some [⟨9223372036854775802, 9223372036854775807⟩] := by
  have hmade : (make 5 2).toOption.map (·.assign? 9223372036854775805) =
      some (some [⟨9223372036854775802, 9223372036854775807⟩]) := by
    decide +kernel
  obtain ⟨h, hmake, hwindows⟩ := exists_of_make hmade
  refine ⟨h, hmake, hwindows, ?_⟩
  rw [← hwindows]
  exact (assigned_exact hmake (by decide)).2.2.2.1

/-- The greatest length in steps of 1: the last time but one lies in the window that starts at zero,
and in no other, and there is no room for it. -/
theorem no_room_for_one : ∃ h, make Millis.greatest 1 = .ok h ∧ h.advance = 1 ∧
    -2 ^ 63 + Millis.greatest.toInt ≤ (9223372036854775806 : Millis).toInt ∧
    (∀ s : Int, s ≤ (9223372036854775806 : Millis).toInt ∧
      (9223372036854775806 : Millis).toInt < s + Millis.greatest.toInt ∧
      s + Millis.greatest.toInt ≤ 2 ^ 63 - 1 ↔ s = 0) ∧
    h.assign? 9223372036854775806 = none := by
  have hmade : (make Millis.greatest 1).toOption.map (·.hasRoom) = some false := by decide +kernel
  obtain ⟨h, hmake, hroom⟩ := exists_of_make hmade
  refine ⟨h, hmake, (eq_of_make hmake).2, by decide, fun s => ?_, ?_⟩
  · rw [Millis.toInt_greatest, show (9223372036854775806 : Millis).toInt = 9223372036854775806 from rfl]
    omega
  · rw [assign?, hroom]
    rfl

/-- Less than one window length above the least time, the windows that contain a time and are
representable are all listed just when there is room for them and none of the family starts at the
least time, that is, when the advance does not divide `2 ^ 63`. Where there is room and one does, that
one window is left out. -/
theorem assigned_complete_iff {length advance : Millis} {h : Hopping}
    (hmake : make length advance = .ok h) {t : Millis} (ht : t.toInt < -2 ^ 63 + length.toInt)
    (halign : -2 ^ 63 ≤ t.toInt - t.toInt % h.advance.toInt) :
    h.descent? t = h.assign? t ∧
    ((∃ ws, h.assign? t = some ws ∧ ∀ s : Int, h.advance.toInt ∣ s → -2 ^ 63 ≤ s → s ≤ t.toInt →
        t.toInt < s + length.toInt → s + length.toInt ≤ 2 ^ 63 - 1 →
        ∃ w ∈ ws, w.start.toInt = s ∧ w.stop.toInt = s + length.toInt) ↔
      16 * h.maxWindows ≤ 2 ^ 63 - 1 ∧ ¬ h.advance.toInt ∣ 2 ^ 63) ∧
    ∀ ws, h.assign? t = some ws → ∀ s : Int,
      (∃ w ∈ ws, w.start.toInt = s ∧ w.stop.toInt = s + length.toInt) ↔
        h.advance.toInt ∣ s ∧ s ≠ -2 ^ 63 ∧ -2 ^ 63 ≤ s ∧ s ≤ t.toInt ∧
          t.toInt < s + length.toInt ∧ s + length.toInt ≤ 2 ^ 63 - 1 := by
  obtain ⟨rfl, -⟩ := eq_of_make hmake
  have hlo := Int64.le_toInt t
  have hL := Int64.toInt_lt h.length
  refine ⟨descent?_eq halign, ?_, fun ws hws s => ?_⟩
  · simp only [assign?_eq_some_iff]
    constructor
    · rintro ⟨_, ⟨hroom, rfl⟩, hall⟩
      refine ⟨hroom, fun hdvd => ?_⟩
      have hleast := exists_start_iff.1
        (hall (-2 ^ 63) (Int.dvd_neg.2 hdvd) (by omega) hlo (by omega) (by omega))
      omega
    · rintro ⟨hroom, hdvd⟩
      refine ⟨_, ⟨hroom, rfl⟩, fun s hs hleast hle hlt hfits => exists_start_iff.2 ?_⟩
      have hne : s ≠ -2 ^ 63 := by
        rintro rfl
        exact hdvd (Int.dvd_neg.1 hs)
      exact ⟨hs, by omega, hle, hlt, hfits⟩
  · obtain ⟨-, rfl⟩ := assign?_eq_some_iff.1 hws
    rw [exists_start_iff]
    constructor
    · rintro ⟨hdvd, hleast, hrest⟩
      exact ⟨hdvd, by omega, by omega, hrest⟩
    · rintro ⟨hdvd, hne, hleast, hrest⟩
      exact ⟨hdvd, by omega, hrest⟩

/-- The theorem for an advance that does not divide `2 ^ 63`: all windows of a time close to the least
one are listed. -/
theorem assigned_complete_for_advance_three : ∃ h, make 10 3 = .ok h ∧
    h.assign? (-9223372036854775803) = some
      [⟨-9223372036854775806, -9223372036854775796⟩, ⟨-9223372036854775803, -9223372036854775793⟩] ∧
    ∃ ws, h.assign? (-9223372036854775803) = some ws ∧
      ∀ s : Int, 3 ∣ s → -2 ^ 63 ≤ s → s ≤ -9223372036854775803 → -9223372036854775803 < s + 10 →
        s + 10 ≤ 2 ^ 63 - 1 → ∃ w ∈ ws, w.start.toInt = s ∧ w.stop.toInt = s + 10 := by
  have hmade : (make 10 3).toOption.map (·.assign? (-9223372036854775803)) =
      some (some [⟨-9223372036854775806, -9223372036854775796⟩,
        ⟨-9223372036854775803, -9223372036854775793⟩]) := by
    decide +kernel
  obtain ⟨h, hmake, hwindows⟩ := exists_of_make hmade
  have hroom := (assign?_eq_some_iff.1 hwindows).1
  have hadvance : h.advance = 3 := (eq_of_make hmake).2
  refine ⟨h, hmake, hwindows, ?_⟩
  have hcomplete := (assigned_complete_iff hmake (t := -9223372036854775803) (by decide)
    (by rw [hadvance]; decide)).2.1
  rw [hadvance] at hcomplete
  exact hcomplete.2 ⟨hroom, by decide⟩

/-- With an advance of two a window starts at the least time. The time after that lies in no other
window, and is said to lie in none. -/
theorem least_window_left_out : ∃ h, make 4 2 = .ok h ∧ h.advance = 2 ∧
    (-9223372036854775807 : Millis).toInt < -2 ^ 63 + (4 : Millis).toInt ∧
    -2 ^ 63 ≤ (-9223372036854775807 : Millis).toInt - (-9223372036854775807 : Millis).toInt % 2 ∧
    h.assign? (-9223372036854775807) = some [] ∧
    ¬ ∀ s : Int, h.advance.toInt ∣ s → -2 ^ 63 ≤ s → s ≤ (-9223372036854775807 : Millis).toInt →
      (-9223372036854775807 : Millis).toInt < s + (4 : Millis).toInt →
      s + (4 : Millis).toInt ≤ 2 ^ 63 - 1 →
      ∃ ws, h.assign? (-9223372036854775807) = some ws ∧
        ∃ w ∈ ws, w.start.toInt = s ∧ w.stop.toInt = s + (4 : Millis).toInt := by
  have hmade : (make 4 2).toOption.map (·.assign? (-9223372036854775807)) = some (some []) := by
    decide +kernel
  obtain ⟨h, hmake, hnone⟩ := exists_of_make hmade
  have hadvance : h.advance = 2 := (eq_of_make hmake).2
  refine ⟨h, hmake, hadvance, by decide, by decide, hnone, fun hall => ?_⟩
  obtain ⟨ws, hws, w, hw, -⟩ := hall (-2 ^ 63) (by rw [hadvance]; decide) (by decide) (by decide)
    (by decide) (by decide)
  rw [hnone] at hws
  cases hws
  cases hw

end Hopping

end WindowTally
