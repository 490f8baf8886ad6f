import Mathlib.Algebra.BigOperators.Fin
import Mathlib.Algebra.Order.BigOperators.Group.List
import Mathlib.Tactic.Ring
import WindowTally.Proofs.ArrivalOrder

/-!
# Hopping windows in tiles

Windows whose length is `k` times their advance each consist of `k` tumbling windows
of the length of the advance, their *tiles*. Over records in the order of their times
what a run emits for a window is the sum of what a run with tumbling windows emits
for its tiles (`Aggregator.emitted_eq_sum_tumbling`), though the two runs close
their windows at different moments. There is always room for the one tumbling window of
a time, and for the `k` hopping ones while they take up at most `2 ^ 63 - 1` bytes.

Neither run drops anything, so both emit the occurrences that
`Hopping.count_pairs` counts without state, and there a time lies in a window if and
only if it lies in one of the tiles (`sum_tiles_time`). Times lie one window length
above the least one: only there a window that starts at the least time does not matter.
-/
namespace WindowTally

open WordCount (amount)

/-! ## Tiles -/

namespace Window

/-- The `i`-th of the windows of one length that follow each other from the start of `w` on. -/
def tile (w : Window) (length : Millis) (i : Nat) : Window :=
  ⟨Int64.ofInt (w.start.toInt + i * length.toInt),
    Int64.ofInt (w.start.toInt + (i + 1) * length.toInt)⟩

section
variable {w : Window} {length : Millis} {i k : Nat}

/-- The tiles of a window that `k` lengths fill are representable, as the window is. -/
theorem toInt_tile (hlength : 0 < length.toInt)
    (hw : w.stop.toInt = w.start.toInt + k * length.toInt) (hi : i < k) :
    (w.tile length i).start.toInt = w.start.toInt + i * length.toInt ∧
      (w.tile length i).stop.toInt = w.start.toInt + (i + 1) * length.toInt := by
  have hlo := Int64.le_toInt w.start
  have hhi := Int64.toInt_lt w.stop
  have hstart : 0 ≤ (i : Int) * length.toInt := Int.mul_nonneg (by omega) (by omega)
  have hstop : ((i : Int) + 1) * length.toInt ≤ k * length.toInt :=
    Int.mul_le_mul_of_nonneg_right (by omega) (by omega)
  have hstep : ((i : Int) + 1) * length.toInt = i * length.toInt + length.toInt := by ring
  constructor
  · exact Int64.toInt_ofInt_of_le (by omega) (by omega)
  · exact Int64.toInt_ofInt_of_le (by omega) (by omega)

end

end Window

/-- A time in a window that `k` lengths fill lies in one of the `k` tiles, and no other time lies in
any. -/
theorem sum_tiles_time {s t A : Int} (hA : 0 < A) (k n : Nat) :
    (∑ i ∈ Finset.range k, if s + i * A ≤ t ∧ t < s + (i + 1) * A then n else 0) =
      if s ≤ t ∧ t < s + k * A then n else 0 := by
  induction k with
  | zero =>
    have hempty : ¬ (s ≤ t ∧ t < s + ((0 : Nat) : Int) * A) := by omega
    rw [Finset.sum_range_zero, if_neg hempty]
  | succ k ih =>
    have hnonneg : 0 ≤ (k : Int) * A := Int.mul_nonneg (by omega) (by omega)
    have hstep : ((k : Int) + 1) * A = k * A + A := by ring
    rw [Finset.sum_range_succ, ih, Nat.cast_succ, hstep]
    split_ifs <;> omega

namespace Hopping

variable {h h' : Hopping} {k : Nat} (hadvance : h.advance = h'.length)
  (htumbling : h'.advance = h'.length) (hlength : h.length.toInt = k * h'.length.toInt)
include hadvance htumbling hlength

/-- A record brings a word to a window of the long family as often as to all tiles of the window
together. -/
theorem occurrences_eq_sum_tiles {w : Window} (hstart : h.advance.toInt ∣ w.start.toInt)
    (hstop : w.stop.toInt = w.start.toInt + h.length.toInt) {r : Record}
    (hr : -2 ^ 63 + h.length.toInt ≤ r.timestamp.toInt) (word : String) :
    (Operation.record r).occurrences h word w =
      ∑ i ∈ Finset.range k, (Operation.record r).occurrences h' word (w.tile h'.length i) := by
  have hA := h'.length_toInt_pos
  have hwhole : w ∈ h.windowsAt r.timestamp ↔ w.start.toInt ≤ r.timestamp.toInt ∧
      r.timestamp.toInt < w.start.toInt + k * h'.length.toInt := by
    simp only [mem_windowsAt_iff, Int64.le_iff_toInt_le, Int64.lt_iff_toInt_lt,
      Millis.toInt_least, hstart, hstop, hlength, true_and]
    omega
  have htile : ∀ i ∈ Finset.range k, w.tile h'.length i ∈ h'.windowsAt r.timestamp ↔
      w.start.toInt + i * h'.length.toInt ≤ r.timestamp.toInt ∧
        r.timestamp.toInt < w.start.toInt + (i + 1) * h'.length.toInt := by
    intro i hi
    obtain ⟨htstart, htstop⟩ := Window.toInt_tile hA (hlength ▸ hstop) (Finset.mem_range.1 hi)
    have haligned : h'.length.toInt ∣ w.start.toInt + i * h'.length.toInt :=
      Int.dvd_add (hadvance ▸ hstart) (Int.dvd_mul_left _ _)
    have hfits : ((i : Int) + 1) * h'.length.toInt ≤ h.length.toInt := by
      rw [hlength]
      exact Int.mul_le_mul_of_nonneg_right (by have := Finset.mem_range.1 hi; omega) (by omega)
    have hstep : ((i : Int) + 1) * h'.length.toInt =
        i * h'.length.toInt + h'.length.toInt := by ring
    have hnonneg : 0 ≤ (i : Int) * h'.length.toInt := Int.mul_nonneg (by omega) (by omega)
    simp only [mem_windowsAt_iff, Int64.le_iff_toInt_le, Int64.lt_iff_toInt_lt,
      Millis.toInt_least, htstart, htstop, htumbling, haligned, true_and]
    omega
  simp only [Operation.occurrences, hwhole]
  rw [← sum_tiles_time hA]
  refine Finset.sum_congr rfl fun i hi => ?_
  simp only [htile i hi]

theorem count_pairs_eq_sum_tiles {w : Window} (hstart : h.advance.toInt ∣ w.start.toInt)
    (hstop : w.stop.toInt = w.start.toInt + h.length.toInt) {rs : List Record}
    (hrange : ∀ r ∈ rs, -2 ^ 63 + h.length.toInt ≤ r.timestamp.toInt) (word : String) :
    (h.pairs rs).count (word, w) =
      ∑ i ∈ Finset.range k, (h'.pairs rs).count (word, w.tile h'.length i) := by
  simp only [count_pairs]
  induction rs with
  | nil => simp
  | cons r rs ih =>
    obtain ⟨hr, hrest⟩ := List.forall_mem_cons.1 hrange
    simp only [List.map_cons, List.sum_cons, Finset.sum_add_distrib]
    rw [ih hrest, occurrences_eq_sum_tiles hadvance htumbling hlength hstart hstop hr]

omit hadvance htumbling hlength in
/-- Records bring no pair more often than they bring words. -/
theorem count_pairs_le_words (h : Hopping) (word : String) (w : Window) (rs : List Record) :
    (h.pairs rs).count (word, w) ≤ (rs.map fun r => (Operation.record r).words.length).sum := by
  rw [count_pairs]
  exact List.sum_le_sum fun r _ => (Operation.record r).occurrences_le_length h word w

end Hopping

/-- Bounding the terms of a sum does not change what it is up to the bound. -/
theorem min_sum_min (f : Nat → Nat) (k bound : Nat) :
    min (∑ i ∈ Finset.range k, min (f i) bound) bound = min (∑ i ∈ Finset.range k, f i) bound := by
  induction k with
  | zero => rfl
  | succ k ih =>
    rw [Finset.sum_range_succ, Finset.sum_range_succ]
    omega

/-- With a length of `k` advances a time lies in at most `k` windows. -/
theorem Hopping.maxWindows_eq_of_length_eq {h : Hopping} {k : Nat}
    (hlength : h.length.toInt = k * h.advance.toInt) : h.maxWindows = k := by
  have hA := h.advance_toInt_pos
  have hless : h.length.toInt - 1 = h.advance.toInt - 1 + k * h.advance.toInt - h.advance.toInt := by
    omega
  rw [maxWindows, hless, Int.sub_ediv_of_dvd _ (Int.dvd_refl _), Int.ediv_self (Int.ne_of_gt hA),
    Int.add_mul_ediv_right _ _ (Int.ne_of_gt hA), Int.ediv_eq_zero_of_lt (by omega) (by omega)]
  omega

namespace Aggregator

/-- Settings in order make an aggregator with any windows there are. -/
theorem exists_ofSettings {s : ProcessingSettings} (hs : s.check = .ok ()) {length advance : Millis}
    {h : Hopping} (hmake : Hopping.make length advance = .ok h) (hadvance : 0 ≤ advance) :
    ∃ a, ofSettings { s with windowLength := length, advance := advance } = .ok a ∧
      a.windows = h := by
  have hwindows : ({ s with windowLength := length, advance := advance } :
      ProcessingSettings).windows = .ok h := by
    rw [ProcessingSettings.windows, hmake]
    rfl
  have hvalid : ({ s with windowLength := length, advance := advance } :
      ProcessingSettings).Valid := by
    obtain ⟨hlength, hlong⟩ := ProcessingSettings.le_of_windows hwindows
    exact { ProcessingSettings.check_eq_ok_iff.1 hs with
      length_pos := hlength
      advance_nonneg := hadvance
      advance_le := hlong }
  exact ⟨_, ofSettings_of_valid hvalid hwindows, rfl⟩

/-- Records in the order of their times are all within any grace period. -/
theorem amount_outputs_of_pairwise_le {s : ProcessingSettings} {a : Aggregator}
    (ha : ofSettings s = .ok a) {rs : List Record}
    (hrs : rs.Pairwise fun r r' => r.timestamp ≤ r'.timestamp) (word : String) (w : Window) :
    amount word w (a.outputs (rs.map .record ++ [.drain])).flatten =
      min ((a.windows.pairs rs).count (word, w)) (2 ^ 64 - 1) := by
  have hgrace : 0 ≤ s.grace.toInt := by
    have := (valid_of_ofSettings ha).grace_nonneg
    rwa [Int64.le_iff_toInt_le, Int64.toInt_zero] at this
  have hwithin : WithinGrace s.grace rs := hrs.imp fun hle => by
    rw [Int64.le_iff_toInt_le] at hle
    omega
  rw [amount_outputs_ofSettings ha, onTime_of_withinGrace _ _ _ _ hwithin]

section
variable {s s' : ProcessingSettings} {a b : Aggregator} (ha : ofSettings s = .ok a)
  (hb : ofSettings s' = .ok b) {k : Nat} (hadvance : a.windows.advance = b.windows.length)
  (htumbling : b.windows.advance = b.windows.length)
  (hlength : a.windows.length.toInt = k * b.windows.length.toInt)
  {rs : List Record} (hrs : rs.Pairwise fun r r' => r.timestamp ≤ r'.timestamp)
  (hrange : ∀ r ∈ rs, -2 ^ 63 + a.windows.length.toInt ≤ r.timestamp.toInt)
  {w : Window} (hstart : a.windows.advance.toInt ∣ w.start.toInt)
  (hstop : w.stop.toInt = w.start.toInt + a.windows.length.toInt) (word : String)
include ha hb hadvance htumbling hlength hrs hrange hstart hstop

/-- A run emits for a window, up to the largest count, what a run with the tumbling windows of its
advance emits for the tiles of the window. -/
theorem amount_outputs_eq_min_sum_tiles :
    amount word w (a.outputs (rs.map .record ++ [.drain])).flatten =
      min (∑ i ∈ Finset.range k, amount word (w.tile b.windows.length i)
        (b.outputs (rs.map .record ++ [.drain])).flatten) (2 ^ 64 - 1) := by
  simp only [amount_outputs_of_pairwise_le ha hrs, amount_outputs_of_pairwise_le hb hrs]
  rw [min_sum_min, Hopping.count_pairs_eq_sum_tiles hadvance htumbling hlength hstart hstop hrange]

/-- A run of fewer words than the largest count meets no bound. -/
theorem amount_outputs_eq_sum_tiles
    (hwords : (rs.map fun r => (Operation.record r).words.length).sum < 2 ^ 64) :
    amount word w (a.outputs (rs.map .record ++ [.drain])).flatten =
      ∑ i ∈ Finset.range k, amount word (w.tile b.windows.length i)
        (b.outputs (rs.map .record ++ [.drain])).flatten := by
  have hexact {s : ProcessingSettings} {c : Aggregator} (hc : ofSettings s = .ok c) (v : Window) :
      amount word v (c.outputs (rs.map .record ++ [.drain])).flatten =
        (c.windows.pairs rs).count (word, v) := by
    have hfew := c.windows.count_pairs_le_words word v rs
    rw [amount_outputs_of_pairwise_le hc hrs]
    omega
  simp only [hexact ha, hexact hb]
  exact Hopping.count_pairs_eq_sum_tiles hadvance htumbling hlength hstart hstop hrange word

end

/-- Settings in order make both an aggregator with windows of `k` tiles and one with the tiles. -/
theorem exists_tiled {A L : Millis} (hA : 0 < A) {k : Nat} (hk : 1 ≤ k) (hL : L.toInt = k * A.toInt)
    {s : ProcessingSettings} (hs : s.check = .ok ()) :
    ∃ a b, ofSettings { s with windowLength := L, advance := A } = .ok a ∧
      ofSettings { s with windowLength := A, advance := 0 } = .ok b ∧
      (a.windows.length = L ∧ a.windows.advance = A ∧ a.windows.maxWindows = k) ∧
      b.windows.length = A ∧ b.windows.advance = A ∧ b.windows.maxWindows = 1 := by
  have hA' := Int64.lt_iff_toInt_lt.1 hA
  have hAL : A ≤ L := by
    have := Int.mul_le_mul_of_nonneg_right (b := (k : Int)) (c := A.toInt) (a := 1) (by omega)
      (by rw [Int64.toInt_zero] at hA'; omega)
    rw [Int64.le_iff_toInt_le]
    omega
  have hlong : Hopping.make L A = .ok ⟨L, A, hA, hAL⟩ := by
    have hLpos := Int64.lt_of_lt_of_le hA hAL
    rw [Hopping.make, dif_neg (Int64.not_le.2 hLpos), dif_neg (Int64.not_le.2 hA),
      dif_neg (Int64.not_lt.2 hAL)]
  have hshort : Hopping.make A 0 = .ok ⟨A, A, hA, Int64.le_refl A⟩ := by
    rw [Hopping.make, dif_neg (Int64.not_le.2 hA), dif_pos (Int64.le_refl 0)]
  obtain ⟨a, ha, hawindows⟩ := exists_ofSettings hs hlong (Int64.le_of_lt hA)
  obtain ⟨b, hb, hbwindows⟩ := exists_ofSettings hs hshort (Int64.le_refl 0)
  refine ⟨a, b, ha, hb, ⟨by rw [hawindows], by rw [hawindows], ?_⟩, by rw [hbwindows],
    by rw [hbwindows], ?_⟩
  · rw [hawindows]
    exact Hopping.maxWindows_eq_of_length_eq hL
  · rw [hbwindows]
    exact Hopping.maxWindows_eq_of_length_eq (by rw [Nat.cast_one, Int.one_mul])

/-- Over records in the order of their times, the count that windows of length `L` at an advance of
`A` give a word is the sum of the counts that tumbling windows of length `A` give it, in the `k`
tumbling windows that make up the long one: exactly in a run of fewer than `2 ^ 64` words, and up to
the largest count in any run. In both runs every pair is emitted once at most. The run with tumbling
windows always comes to an end; the other does unless there is a record and `k` windows take up more
than `2 ^ 63 - 1` bytes. -/
theorem emitted_eq_sum_tumbling {A L : Millis} (hA : 0 < A) {k : Nat} (hk : 1 ≤ k)
    (hL : L.toInt = k * A.toInt) {s : ProcessingSettings} (hs : s.check = .ok ())
    {rs : List Record} (hrs : rs.Pairwise fun r r' => r.timestamp ≤ r'.timestamp)
    (hrange : ∀ r ∈ rs, -2 ^ 63 + L.toInt ≤ r.timestamp.toInt) :
    ∃ a b, ofSettings { s with windowLength := L, advance := A } = .ok a ∧
      ofSettings { s with windowLength := A, advance := 0 } = .ok b ∧
      (a.run? (rs.map .record ++ [.drain]) = none ↔ rs ≠ [] ∧ 2 ^ 63 - 1 < 16 * k) ∧
      ∃ tumbled b', b.run? (rs.map .record ++ [.drain]) = some (tumbled, b') ∧
        tumbled.flatten.Pairwise WordCount.EmitsBefore ∧
        ∀ hopped a', a.run? (rs.map .record ++ [.drain]) = some (hopped, a') →
          hopped.flatten.Pairwise WordCount.EmitsBefore ∧
          ∀ word w, A.toInt ∣ w.start.toInt → w.stop.toInt = w.start.toInt + L.toInt →
            amount word w hopped.flatten =
              min (∑ i ∈ Finset.range k, amount word (w.tile A i) tumbled.flatten) (2 ^ 64 - 1) ∧
            ((rs.map fun r => (Operation.record r).words.length).sum < 2 ^ 64 →
              amount word w hopped.flatten =
                ∑ i ∈ Finset.range k, amount word (w.tile A i) tumbled.flatten) := by
  obtain ⟨a, b, ha, hb, ⟨haL, haA, hamost⟩, hbL, hbA, hbmost⟩ := exists_tiled hA hk hL hs
  obtain ⟨⟨tumbled, b'⟩, hbrun⟩ := Option.ne_none_iff_exists'.1
    (mt (run?_drain_eq_none_iff b rs).1 (by rw [hbmost]; omega))
  obtain ⟨rfl, -⟩ := run?_eq_some hbrun
  refine ⟨a, b, ha, hb, by rw [run?_drain_eq_none_iff a rs, hamost], _, b', hbrun,
    pairwise_emitsBefore (coupled_ofSettings hb) _, fun hopped a' harun => ?_⟩
  obtain ⟨rfl, -⟩ := run?_eq_some harun
  refine ⟨pairwise_emitsBefore (coupled_ofSettings ha) _, fun word w hstart hstop => ?_⟩
  rw [← haL] at hL hrange hstop
  rw [← hbL] at hL ⊢
  exact ⟨amount_outputs_eq_min_sum_tiles ha hb (haA.trans hbL.symm) (hbA.trans hbL.symm) hL hrs
      hrange (haA ▸ hstart) hstop word,
    amount_outputs_eq_sum_tiles ha hb (haA.trans hbL.symm) (hbA.trans hbL.symm) hL hrs hrange
      (haA ▸ hstart) hstop word⟩

/-- The theorem at windows of 10 ms in steps of 5: of the words at -6, -1 and 4 the window `[-5, 5)`
holds three, two of them in its first half. -/
theorem emitted_eq_sum_across_zero : ∃ a b, ofSettings (.hopping 10 5) = .ok a ∧
    ofSettings (.tumbling 5) = .ok b ∧ ∃ hopped tumbled a' b',
    a.run? [.record ⟨-6, [97], none⟩, .record ⟨-1, [97, 32, 97], none⟩, .record ⟨4, [97], none⟩,
      .drain] = some (hopped, a') ∧ amount "a" ⟨-5, 5⟩ hopped.flatten = 2 + 1 ∧
    b.run? [.record ⟨-6, [97], none⟩, .record ⟨-1, [97, 32, 97], none⟩, .record ⟨4, [97], none⟩,
      .drain] = some (tumbled, b') ∧ amount "a" ⟨-5, 0⟩ tumbled.flatten = 2 := by
  have hrs : List.Pairwise (fun r r' : Record => r.timestamp ≤ r'.timestamp)
      [⟨-6, [97], none⟩, ⟨-1, [97, 32, 97], none⟩, ⟨4, [97], none⟩] := by decide
  obtain ⟨a, b, ha, hb, hnone, tumbled, b', hbrun, -, hall⟩ := emitted_eq_sum_tumbling (A := 5)
    (L := 10) (k := 2) (s := {}) (by decide) (by decide) (by decide) rfl hrs (by decide)
  obtain ⟨⟨hopped, a'⟩, harun⟩ := Option.ne_none_iff_exists'.1
    (mt hnone.1 fun h => absurd h.2 (by decide))
  obtain ⟨-, hsum⟩ := hall hopped a' harun
  obtain ⟨rfl, -⟩ := run?_eq_some hbrun
  refine ⟨a, b, ha, hb, hopped, _, a', b', harun, ?_, hbrun, ?_⟩
  · refine ((hsum "a" ⟨-5, 5⟩ (by decide) (by decide)).2 (by decide +kernel)).trans ?_
    cases hb
    decide +kernel
  · cases hb
    decide +kernel

/-- With `2 ^ 60` windows of a millisecond to a long one the two runs part at the first record. -/
theorem no_room_for_tiles : ∃ a b,
    ofSettings { windowLength := 1152921504606846976, advance := 1 } = .ok a ∧
    ofSettings { windowLength := 1, advance := 0 } = .ok b ∧
    (1152921504606846976 : Millis).toInt = (2 ^ 60 : Nat) * (1 : Millis).toInt ∧
    -2 ^ 63 + (1152921504606846976 : Millis).toInt ≤ (0 : Millis).toInt ∧
    (0 : Millis).toInt ≤ 2 ^ 63 - 1 - (1152921504606846976 : Millis).toInt ∧
    a.run? [.record ⟨0, [97], none⟩, .drain] = none ∧
    b.run? [.record ⟨0, [97], none⟩, .drain] ≠ none := by
  obtain ⟨a, ha⟩ : ∃ a, ofSettings { windowLength := 1152921504606846976, advance := 1 } = .ok a :=
    ⟨_, rfl⟩
  obtain ⟨b, hb⟩ : ∃ b, ofSettings { windowLength := 1, advance := 0 } = .ok b := ⟨_, rfl⟩
  have hnone (c : Aggregator) := run?_drain_eq_none_iff c [⟨0, [97], none⟩]
  refine ⟨a, b, ha, hb, by decide, by decide, by decide, (hnone a).2 ⟨by simp, ?_⟩,
    mt (hnone b).1 fun h => Nat.not_le.2 h.2 ?_⟩
  · cases ha
    decide +kernel
  · cases hb
    decide +kernel

end Aggregator

end WindowTally
