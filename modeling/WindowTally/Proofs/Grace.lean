import WindowTally.Proofs.Statistics

/-!
# A longer grace period

Two aggregators that differ in their grace periods take in the same operations. With the
longer one each window closes later, so at no point of the run has it closed a window
that the other has open (`Operation.Closes.of_grace_le`). Whatever is on time with the
shorter one is on time with the longer one (`onTime_le_of_grace_le`), and a record has
all the open windows it had, and perhaps more (`Arrival.openWindows_sublist`).

So the longer one loses no word that the other keeps (`Aggregator.keepsMore_of_grace_le`).
What the two keep and what they drop adds up to the same words, and their watermarks know
nothing of grace.
-/
namespace WindowTally

open WordCount (amount)

section
variable {grace longer : Millis} (hle : grace ≤ longer)
include hle

theorem Operation.Closes.of_grace_le {allowance : Millis} {w : Window} {op : Operation}
    (h : op.Closes longer allowance w) : op.Closes grace allowance w := by
  rw [Int64.le_iff_toInt_le] at hle
  cases op with
  | record r =>
    simp only [Operation.Closes] at h ⊢
    omega
  | flush now => exact h
  | drain => exact h

variable (allowance : Millis) (h : Hopping)

theorem onTime_le_of_grace_le (word : String) (w : Window) (ops : List Operation) :
    onTime grace allowance h word w ops ≤ onTime longer allowance h word w ops := by
  induction ops with
  | nil => simp
  | cons op ops ih =>
    rw [onTime_cons, onTime_cons]
    refine Nat.add_le_add_left ?_ _
    by_cases hlonger : op.Closes longer allowance w
    · rw [if_pos hlonger, if_pos (hlonger.of_grace_le hle)]
    · rw [if_neg hlonger]
      split
      · exact Nat.zero_le _
      · exact ih

namespace Arrival

variable (x : Arrival)

theorem openWindows_sublist :
    (x.openWindows grace allowance h).Sublist (x.openWindows longer allowance h) := by
  refine List.monotone_filter_right _ fun w hopen => ?_
  simp only [Bool.not_eq_true', decide_eq_false_iff_not] at hopen ⊢
  rintro ⟨op, hop, hcloses⟩
  exact hopen ⟨op, hop, hcloses.of_grace_le hle⟩

theorem isDropped_of_grace_le (hdropped : x.isDropped longer allowance h = true) :
    x.isDropped grace allowance h = true := by
  unfold isDropped at *
  rw [List.isEmpty_iff] at *
  exact List.sublist_nil.1 (hdropped ▸ x.openWindows_sublist hle allowance h)

theorem counted_le_of_grace_le : x.counted grace allowance h ≤ x.counted longer allowance h := by
  unfold counted
  by_cases hlonger : x.isDropped longer allowance h = true
  · rw [if_pos hlonger, if_pos (x.isDropped_of_grace_le hle allowance h hlonger)]
  · rw [if_neg hlonger]
    split
    · exact Nat.zero_le _
    · exact Nat.le_refl _

theorem dropped_le_of_grace_le : x.dropped longer allowance h ≤ x.dropped grace allowance h := by
  have hshort := x.counted_add_dropped grace allowance h
  have hlong := x.counted_add_dropped longer allowance h
  have hkept := x.counted_le_of_grace_le hle allowance h
  omega

end Arrival

end

/-! ## Words of a run -/

namespace Operation

theorem sum_words_arrivals (ops : List Operation) :
    ((arrivals ops).map (·.words.length)).sum = (ops.map fun op => op.words.length).sum := by
  induction ops using List.reverseRecOn with
  | nil => rfl
  | append_singleton ops op ih =>
    have hone : ((arrivalsAfter ops [op]).map (·.words.length)).sum =
        ([op].map fun op => op.words.length).sum := by
      cases op <;> rfl
    rw [arrivals_concat, List.map_append, List.sum_append, ih, hone, List.map_append,
      List.sum_append]

end Operation

namespace Aggregator

section
variable {s : ProcessingSettings} {a : Aggregator} (ha : ofSettings s = .ok a)
include ha

/-- In a run of fewer than `2 ^ 64` words the totals of words are those of what happened. -/
theorem toNat_words_after {ops : List Operation}
    (hn : (ops.map fun op => op.words.length).sum < 2 ^ 64) :
    (a.after ops).stats.counted.toNat =
        ((Operation.arrivals ops).map (Arrival.counted s.grace s.allowance a.windows)).sum ∧
      (a.after ops).stats.lateDropped.toNat =
        ((Operation.arrivals ops).map (Arrival.dropped s.grace s.allowance a.windows)).sum := by
  have hall : ((Operation.arrivals ops).map (Arrival.counted s.grace s.allowance a.windows)).sum +
      ((Operation.arrivals ops).map (Arrival.dropped s.grace s.allowance a.windows)).sum =
        (ops.map fun op => op.words.length).sum := by
    rw [← List.sum_map_add, ← Operation.sum_words_arrivals]
    simp only [Arrival.counted_add_dropped]
  have htoNat {n : Nat} (hle : n ≤ (ops.map fun op => op.words.length).sum) :
      (UInt64.ofNat n).toNat = n := UInt64.toNat_ofNat_of_lt' (Nat.lt_of_le_of_lt hle hn)
  rw [stats_after ha]
  exact ⟨htoNat (hall ▸ Nat.le_add_right _ _), htoNat (hall ▸ Nat.le_add_left _ _)⟩

/-- A longer grace period is as valid, and leaves the windows as they are. -/
theorem exists_ofSettings_of_grace_le {longer : Millis} (hle : s.grace ≤ longer) :
    ∃ b, ofSettings { s with grace := longer } = .ok b ∧ b.windows = a.windows := by
  have hvalid := valid_of_ofSettings ha
  obtain ⟨windows, hwindows, -, rfl⟩ := ofSettings_eq_ok ha
  have hlonger : ({ s with grace := longer } : ProcessingSettings).Valid :=
    { hvalid with grace_nonneg := Int64.le_trans hvalid.grace_nonneg hle }
  exact ⟨_, ofSettings_of_valid hlonger hwindows, rfl⟩

end

/-- Of the same words `b` has counted no fewer than `a`, and both have the same watermark. -/
structure KeepsMore (a b : Aggregator) : Prop where
  counted : a.stats.counted ≤ b.stats.counted
  dropped : b.stats.lateDropped ≤ a.stats.lateDropped
  words : a.stats.counted.toNat + a.stats.lateDropped.toNat =
    b.stats.counted.toNat + b.stats.lateDropped.toNat
  watermark : a.frontier.watermark = b.frontier.watermark
  noted : a.stats.watermark = b.stats.watermark

/-- In a run of fewer than `2 ^ 64` words, a longer grace period keeps every word. -/
theorem keepsMore_after {s : ProcessingSettings} {a b : Aggregator} (ha : ofSettings s = .ok a)
    {longer : Millis} (hle : s.grace ≤ longer) (hb : ofSettings { s with grace := longer } = .ok b)
    (hwindows : b.windows = a.windows) {ops : List Operation}
    (hn : (ops.map fun op => op.words.length).sum < 2 ^ 64) :
    KeepsMore (a.after ops) (b.after ops) := by
  obtain ⟨hcounted, hdropped⟩ := toNat_words_after ha hn
  obtain ⟨hcounted', hdropped'⟩ := toNat_words_after hb hn
  rw [hwindows] at hcounted' hdropped'
  have hmark := congrArg Watermark.mk ((watermark_after ha ops).trans (watermark_after hb ops).symm)
  refine ⟨?_, ?_, ?_, hmark, ?_⟩
  · rw [UInt64.le_iff_toNat_le, hcounted, hcounted']
    exact List.sum_le_sum fun x _ => x.counted_le_of_grace_le hle s.allowance a.windows
  · rw [UInt64.le_iff_toNat_le, hdropped, hdropped']
    exact List.sum_le_sum fun x _ => x.dropped_le_of_grace_le hle s.allowance a.windows
  · rw [hcounted, hdropped, hcounted', hdropped', ← List.sum_map_add, ← List.sum_map_add]
    simp only [Arrival.counted_add_dropped]
  · rw [stats_after ha, stats_after hb]

/-- Valid settings stay valid with a longer grace period, and no run loses words by it. Once the
run ends with a drain, what it has emitted of any word in any window is at least what it emits with
the shorter one. Of fewer than `2 ^ 64` words no fewer are counted and no more are dropped, the same
in all, and the watermark is the same. -/
theorem keepsMore_of_grace_le {s : ProcessingSettings} {a : Aggregator} (ha : ofSettings s = .ok a)
    {longer : Millis} (hle : s.grace ≤ longer) {ops : List Operation}
    (hn : (ops.map fun op => op.words.length).sum < 2 ^ 64) :
    ∃ b, ofSettings { s with grace := longer } = .ok b ∧
      (∀ word w, amount word w (a.outputs (ops ++ [.drain])).flatten ≤
        amount word w (b.outputs (ops ++ [.drain])).flatten) ∧
      KeepsMore (a.after (ops ++ [.drain])) (b.after (ops ++ [.drain])) := by
  obtain ⟨b, hb, hwindows⟩ := exists_ofSettings_of_grace_le ha hle
  refine ⟨b, hb, fun word w => ?_, keepsMore_after ha hle hb hwindows ?_⟩
  · rw [amount_outputs_ofSettings ha, amount_outputs_ofSettings hb, hwindows]
    have hkept := onTime_le_of_grace_le hle s.allowance a.windows word w ops
    dsimp only
    omega
  · simpa [Operation.words] using hn

/-- The theorem where the last of three words comes after its window has closed without grace, and
in time with a second of it. -/
theorem keepsMore_with_a_second : ∃ a b, ofSettings {} = .ok a ∧
    ofSettings { grace := 1000 } = .ok b ∧
    amount "a" ⟨0, 5000⟩ (a.outputs [.record ⟨0, [97], none⟩, .record ⟨5500, [98], none⟩,
      .record ⟨1, [97], none⟩, .drain]).flatten = 1 ∧
    amount "a" ⟨0, 5000⟩ (b.outputs [.record ⟨0, [97], none⟩, .record ⟨5500, [98], none⟩,
      .record ⟨1, [97], none⟩, .drain]).flatten = 2 ∧
    KeepsMore (a.after [.record ⟨0, [97], none⟩, .record ⟨5500, [98], none⟩,
        .record ⟨1, [97], none⟩, .drain])
      (b.after [.record ⟨0, [97], none⟩, .record ⟨5500, [98], none⟩, .record ⟨1, [97], none⟩,
        .drain]) := by
  obtain ⟨a, ha⟩ : ∃ a, ofSettings {} = .ok a := ⟨_, rfl⟩
  have hlonger : ({} : ProcessingSettings).grace ≤ 1000 := by decide
  have hn : (([.record ⟨0, [97], none⟩, .record ⟨5500, [98], none⟩, .record ⟨1, [97], none⟩] :
      List Operation).map fun op => op.words.length).sum < 2 ^ 64 := by decide +kernel
  obtain ⟨b, hb, -, hkeeps⟩ := keepsMore_of_grace_le ha hlonger hn
  refine ⟨a, b, ha, hb, ?_, ?_, hkeeps⟩
  · cases ha
    decide +kernel
  · cases hb
    decide +kernel

end Aggregator

end WindowTally
