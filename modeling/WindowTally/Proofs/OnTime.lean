import WindowTally.Proofs.ArrivalOrder
import WindowTally.Proofs.Statistics

/-!
# Records on time

While nothing but records comes, closing is led by the watermark: a window is closed just
when the watermark has reached its end plus the grace period
(`Frontier.LedByWatermark.isClosed_iff`). A record all of whose windows are closed is
then further behind the watermark than the grace period.

An aggregator drops the words of a record, and says that they are late, when none of the
record's windows is open. That is so as well for a record that has no window at all. So
only late words are dropped just at the times that some window is listed for
(`Aggregator.late_only_behind_iff`); at both ends of the range there are times without
one (`Aggregator.dropped_on_time`).
-/
namespace WindowTally

/-! ## Closing by events alone -/

theorem Millis.subClamped_mono {a b : Millis} (h : a ≤ b) (c : Millis) :
    subClamped a c ≤ subClamped b c := by
  rw [Int64.le_iff_toInt_le] at *
  rw [toInt_subClamped, toInt_subClamped]
  omega

namespace Frontier

/-- Closing has come as far as the watermark less the grace period, and no further. -/
def LedByWatermark (f : Frontier) : Prop :=
  f.closedThrough = Millis.subClamped f.watermark.timestamp f.grace

theorem ledByWatermark_make (grace allowance : Millis) : (make grace allowance).LedByWatermark := by
  have hgrace := (sound_make grace allowance).grace_nonneg
  have hclosed : (make grace allowance).closedThrough = Millis.least := rfl
  have hmark : (make grace allowance).watermark.timestamp = Millis.least := rfl
  rw [LedByWatermark, hclosed, hmark, ← Int64.toInt_inj, Millis.toInt_subClamped, Millis.toInt_least]
  omega

section
variable {f : Frontier} (h : f.LedByWatermark)
include h

theorem LedByWatermark.enroll (t : Millis) (ws : List Window) :
    (f.enroll t ws).2.LedByWatermark := by
  rw [LedByWatermark, closedThrough_enroll, watermark_enroll, grace_enroll]
  exact h

theorem LedByWatermark.onEvent (t : Millis) : (f.onEvent t).2.LedByWatermark := by
  unfold Frontier.onEvent
  split
  · next w hw =>
    obtain ⟨hlt, rfl⟩ := Watermark.advance?_eq_some_iff.1 hw
    have hahead := Millis.subClamped_mono (Int64.le_of_lt hlt) f.grace
    unfold closeThrough
    split
    · next hle =>
      exact Int64.le_antisymm (h ▸ hahead) hle
    · rfl
  · exact h

theorem LedByWatermark.isClosed_iff {w : Window} (hw : w.start < w.stop) :
    f.isClosed w = true ↔ w.stop.toInt + f.grace.toInt ≤ f.watermark.timestamp.toInt := by
  rw [Frontier.isClosed_iff, h, Millis.le_subClamped_iff (Window.least_lt_stop hw)]

end

end Frontier

namespace Aggregator

theorem ledByWatermark_record {a : Aggregator} (h : a.frontier.LedByWatermark) (r : Record) :
    (a.operate (.record r)).2.frontier.LedByWatermark := by
  rw [frontier_operate]
  exact (h.enroll _ _).onEvent _

theorem ledByWatermark_records {a : Aggregator} (h : a.frontier.LedByWatermark)
    (rs : List Record) : (a.after (rs.map .record)).frontier.LedByWatermark := by
  induction rs generalizing a with
  | nil => exact h
  | cons r rs ih => exact ih (ledByWatermark_record h r)

theorem grace_after {a : Aggregator} (h : a.Coupled) (ops : List Operation) :
    (a.after ops).frontier.grace = a.frontier.grace := by
  induction ops generalizing a with
  | nil => rfl
  | cons op ops ih => exact (ih (coupled_operate h op)).trans (grace_operate h op)

/-! ## What is dropped -/

/-- Some word of a record is dropped just when there is one and no window of the record is open. -/
theorem droppedWords_eq (a : Aggregator) (r : Record) : a.droppedWords (.record r) =
    if ∀ w ∈ a.windows.windowsAt r.timestamp, a.frontier.isClosed w = true then
      (Operation.record r).words.length
    else 0 := by
  have hopened : (a.frontier.enroll r.timestamp (a.windows.windowsAt r.timestamp)).1.opened.isEmpty =
      true ↔ ∀ w ∈ a.windows.windowsAt r.timestamp, a.frontier.isClosed w = true := by
    simp [Frontier.enroll, List.filter_eq_nil_iff]
  simp only [droppedWords, hopened, Operation.words]

/-- After records, one is dropped only if it has no window or lies more than the grace period behind
the watermark. -/
theorem behind_of_dropped {s : ProcessingSettings} {a : Aggregator} (ha : ofSettings s = .ok a)
    (rs : List Record) {r : Record} (hsome : a.windows.windowsAt r.timestamp ≠ [])
    (hdropped : (a.after (rs.map .record)).droppedWords (.record r) ≠ 0) :
    r.timestamp.toInt <
      (a.after (rs.map .record)).frontier.watermark.timestamp.toInt - s.grace.toInt := by
  have hled : a.frontier.LedByWatermark := by
    obtain ⟨windows, -, -, rfl⟩ := ofSettings_eq_ok ha
    exact Frontier.ledByWatermark_make _ _
  obtain ⟨w, hw⟩ := List.exists_mem_of_ne_nil _ hsome
  rw [droppedWords_eq, windows_after] at hdropped
  have hclosed : (a.after (rs.map .record)).frontier.isClosed w = true := by
    by_contra hopen
    exact hdropped (if_neg fun hall => hopen (hall w hw))
  rw [(ledByWatermark_records hled rs).isClosed_iff (Hopping.start_lt_stop_of_mem hw),
    grace_after (coupled_ofSettings ha), (frontier_ofSettings ha).1] at hclosed
  have hbefore := Int64.lt_iff_toInt_lt.1 (Hopping.contains_of_mem hw).2
  omega

/-- After records that nothing else has come between, the words of records at a time that can be
aligned, room for its windows being made, are dropped only if they lie more than the grace period
behind the watermark, just when the time does so itself or some window of the family contains it that
has a representable end and does not start at the least time. -/
theorem late_only_behind_iff {s : ProcessingSettings} {a b : Aggregator} (ha : ofSettings s = .ok a)
    {rs : List Record} (hb : b = a.after (rs.map .record)) {t : Millis}
    (halign : -2 ^ 63 ≤ t.toInt - t.toInt % a.windows.advance.toInt) :
    a.windows.descent? t =
      (if a.windows.hasRoom then some (a.windows.windowsAt t) else none) ∧
    ((∀ r : Record, r.timestamp = t → (b.ingest r).2.stats.lateDropped ≠ b.stats.lateDropped →
        t.toInt < b.frontier.watermark.timestamp.toInt - s.grace.toInt) ↔
      t.toInt < b.frontier.watermark.timestamp.toInt - s.grace.toInt ∨
      ∃ start : Int, a.windows.advance.toInt ∣ start ∧ -2 ^ 63 < start ∧ start ≤ t.toInt ∧
        t.toInt < start + s.windowLength.toInt ∧ start + s.windowLength.toInt ≤ 2 ^ 63 - 1) := by
  rw [← length_ofSettings ha, ← Hopping.windowsAt_ne_nil_iff]
  refine ⟨Hopping.descent?_eq halign, ?_⟩
  have hdrops (r : Record) : (b.ingest r).2.stats.lateDropped =
      b.stats.lateDropped + UInt64.ofNat (b.droppedWords (.record r)) :=
    lateDropped_operate b (.record r)
  constructor
  · intro hall
    by_cases hsome : a.windows.windowsAt t = []
    · -- A record with one word has it dropped, as it has no window.
      refine .inl (hall ⟨t, [97], none⟩ rfl ?_)
      have hone : b.droppedWords (.record ⟨t, [97], none⟩) = 1 := by
        rw [droppedWords_eq, hb, windows_after, hsome]
        rfl
      rw [hdrops, hone]
      simp
    · exact .inr hsome
  · rintro (hbehind | hsome) r rfl hne
    · exact hbehind
    · subst hb
      refine behind_of_dropped ha rs hsome fun hzero => hne ?_
      rw [hdrops, hzero]
      exact UInt64.add_zero _

/-- The theorem for a record that lies behind the watermark by less than the grace period: whatever
its words are, none is dropped. -/
theorem late_only_behind_within_grace : ∃ a b, ofSettings { grace := 1000 } = .ok a ∧
    b = a.after ([⟨6000, [97], none⟩].map .record) ∧ b.frontier.watermark.timestamp = 6000 ∧
    ∀ r : Record, r.timestamp = 5500 → (b.ingest r).2.stats.lateDropped = b.stats.lateDropped := by
  obtain ⟨a, ha⟩ : ∃ a, ofSettings { grace := 1000 } = .ok a := ⟨_, rfl⟩
  refine ⟨a, _, ha, rfl, ?_, fun r hr => ?_⟩
  · cases ha
    decide +kernel
  have hmark : (a.after ([⟨6000, [97], none⟩].map .record)).frontier.watermark.timestamp = 6000 := by
    cases ha
    decide +kernel
  have halign : -2 ^ 63 ≤ (5500 : Millis).toInt - (5500 : Millis).toInt % a.windows.advance.toInt := by
    cases ha
    decide +kernel
  have hstart : a.windows.advance.toInt ∣ 5000 := by
    cases ha
    decide +kernel
  by_contra hdropped
  have hlate := (late_only_behind_iff ha rfl halign).2.2 (.inr ⟨5000, hstart, by decide +kernel⟩) r hr
    hdropped
  rw [hmark] at hlate
  exact absurd hlate (by decide +kernel)

/-- Two records that are on time have their word dropped as late: one at the latest time, whose window
would end past it, after a record far behind; the other just after the least time, as the first
record. -/
theorem dropped_on_time : ∃ a b, ofSettings { windowLength := 4 } = .ok a ∧
    b = a.after ([⟨0, [97], none⟩].map .record) ∧
    (-2 ^ 63 ≤ Millis.greatest.toInt - Millis.greatest.toInt % a.windows.advance.toInt ∧
      b.frontier.watermark.timestamp = 0 ∧
      (b.ingest ⟨Millis.greatest, [97], none⟩).2.stats.lateDropped = b.stats.lateDropped + 1 ∧
      (b.ingest ⟨Millis.greatest, [97], none⟩).2.late = ⟨1, 0, 0⟩ ∧
      ¬ Millis.greatest.toInt < b.frontier.watermark.timestamp.toInt - 0) ∧
    (-2 ^ 63 ≤ (Millis.least + 1).toInt - (Millis.least + 1).toInt % a.windows.advance.toInt ∧
      a.frontier.watermark.isLeast = true ∧
      (a.ingest ⟨Millis.least + 1, [97], none⟩).2.stats.lateDropped = a.stats.lateDropped + 1 ∧
      ¬ (Millis.least + 1).toInt < a.frontier.watermark.timestamp.toInt - 0) := by
  refine ⟨_, _, rfl, rfl, ?_, ?_⟩
  · decide +kernel
  · decide +kernel

end Aggregator

end WindowTally
