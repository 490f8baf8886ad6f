import WindowTally.Frontier
import WindowTally.Proofs.Ordered
import WindowTally.Proofs.Windows

/-!
# What closing does

Events, flushes and the end of the stream all close windows in one way
(`Frontier.Closing`): the windows handed out are the pending ones that are closed
afterwards, in the order in which they close, and the others stay pending. When a
window is closed is said for each of them over the unbounded integers
(`isClosed_onEvent`, `isClosed_onFlush`), although the frontier is one clamped
64-bit time: every pending window ends after the least time (`Frontier.Sound`), so
clamping moves no threshold across its end.
-/
namespace WindowTally.Frontier

/-- What holds of a frontier at every time. -/
structure Sound (f : Frontier) : Prop where
  grace_nonneg : 0 ≤ f.grace.toInt
  /-- Pending windows end after they start. -/
  spans : ∀ w ∈ f.pending, w.start < w.stop
  /-- No pending window is closed. -/
  waiting : ∀ w ∈ f.pending, f.closedThrough < w.stop
  /-- The watermark has closed what it closes. -/
  caughtUp : Millis.subClamped f.watermark.timestamp f.grace ≤ f.closedThrough

theorem sound_make (grace allowance : Millis) : (make grace allowance).Sound := by
  have hgrace : 0 ≤ (make grace allowance).grace.toInt := by
    have h : (make grace allowance).grace.toInt = max grace.toInt 0 := Millis.toInt_max grace 0
    omega
  refine ⟨hgrace, by simp [make], by simp [make], ?_⟩
  have hclosed : (make grace allowance).closedThrough.toInt = -2 ^ 63 := rfl
  have hmark : (make grace allowance).watermark.timestamp.toInt = -2 ^ 63 := rfl
  rw [Int64.le_iff_toInt_le, Millis.toInt_subClamped, hclosed, hmark]
  omega

theorem isClosed_iff {f : Frontier} {w : Window} :
    f.isClosed w = true ↔ w.stop ≤ f.closedThrough := by
  simp [isClosed]

theorem Sound.not_isClosed {f : Frontier} (h : f.Sound) {w : Window} (hw : w ∈ f.pending) :
    f.isClosed w = false := by
  simpa [isClosed] using h.waiting w hw

/-! ## Enrolling -/

section
variable (f : Frontier) (ws : List Window)

/-- Registering windows adds them to the pending ones and changes nothing else. -/
theorem foldl_register : (ws.foldl register f).grace = f.grace ∧
    (ws.foldl register f).allowance = f.allowance ∧
    (ws.foldl register f).watermark = f.watermark ∧
    (ws.foldl register f).closedThrough = f.closedThrough ∧
    ∀ v, v ∈ (ws.foldl register f).pending ↔ v ∈ f.pending ∨ v ∈ ws := by
  induction ws generalizing f with
  | nil => simp
  | cons w ws ih =>
    obtain ⟨hg, ha, hm, hc, hp⟩ := ih (f.register w)
    refine ⟨hg, ha, hm, hc, fun v => ?_⟩
    have hput : v ∈ (f.register w).pending ↔ v = w ∨ v ∈ f.pending :=
      Ordered.mem_put_iff Window.closesBefore_trans Window.eq_of_not_closesBefore f.pending_ordered
    rw [List.foldl_cons, hp v, hput, List.mem_cons]
    exact or_assoc.trans or_left_comm

end

section
variable {f : Frontier} {t : Millis} {ws : List Window}

theorem grace_enroll : (f.enroll t ws).2.grace = f.grace := (foldl_register f _).1

theorem allowance_enroll : (f.enroll t ws).2.allowance = f.allowance := (foldl_register f _).2.1

theorem watermark_enroll : (f.enroll t ws).2.watermark = f.watermark := (foldl_register f _).2.2.1

theorem closedThrough_enroll : (f.enroll t ws).2.closedThrough = f.closedThrough :=
  (foldl_register f _).2.2.2.1

theorem isClosed_enroll (w : Window) : (f.enroll t ws).2.isClosed w = f.isClosed w := by
  simp only [isClosed, closedThrough_enroll]

theorem mem_opened {w : Window} :
    w ∈ (f.enroll t ws).1.opened ↔ w ∈ ws ∧ f.isClosed w = false := by
  simp [enroll, List.mem_filter]

theorem mem_pending_enroll {w : Window} :
    w ∈ (f.enroll t ws).2.pending ↔ w ∈ f.pending ∨ w ∈ (f.enroll t ws).1.opened :=
  (foldl_register f _).2.2.2.2 w

theorem sound_enroll (h : f.Sound) (hws : ∀ w ∈ ws, w.start < w.stop) :
    (f.enroll t ws).2.Sound := by
  refine ⟨?_, fun w hw => ?_, fun w hw => ?_, ?_⟩
  · rw [grace_enroll]
    exact h.grace_nonneg
  · rcases mem_pending_enroll.1 hw with hw | hw
    · exact h.spans w hw
    · exact hws w (mem_opened.1 hw).1
  · rw [closedThrough_enroll]
    rcases mem_pending_enroll.1 hw with hw | hw
    · exact h.waiting w hw
    · simpa [isClosed] using (mem_opened.1 hw).2
  · rw [closedThrough_enroll, watermark_enroll, grace_enroll]
    exact h.caughtUp

end

/-! ## Closing -/

/-- From `f` to `f'` the windows `closed` close. -/
structure Closing (f : Frontier) (closed : List Window) (f' : Frontier) : Prop where
  grace : f'.grace = f.grace
  allowance : f'.allowance = f.allowance
  advances : f.closedThrough ≤ f'.closedThrough
  handedOut : closed = f.pending.filter f'.isClosed
  left : f'.pending = f.pending.filter fun w => !f'.isClosed w

theorem closesThrough_iff {threshold : Millis} {w : Window} (h : w.start < w.stop) :
    closesThrough threshold w = true ↔ w.stop ≤ threshold := by
  have hstop := Int64.toInt_lt w.stop
  simp only [closesThrough, decide_eq_true_eq, Window.ClosesBefore, Int64.lt_iff_toInt_lt,
    Int64.le_iff_toInt_le, ← Int64.toInt_inj, Millis.toInt_greatest] at *
  omega

/-- A threshold closes the windows that end at or before it, besides those already closed. -/
theorem isClosed_closeThrough (f : Frontier) (threshold : Millis) (w : Window) :
    (f.closeThrough threshold).2.isClosed w = true ↔
      f.isClosed w = true ∨ w.stop ≤ threshold := by
  unfold closeThrough
  split
  · next hle =>
    rw [isClosed_iff]
    exact ⟨.inl, fun h => h.elim id fun h => Int64.le_trans h hle⟩
  · next hlt =>
    rw [isClosed_iff, isClosed_iff]
    refine ⟨.inr, fun h => h.elim (fun h => ?_) id⟩
    exact Int64.le_trans h (Int64.le_of_lt (Int64.not_le.1 hlt))

theorem closing_closeThrough {f : Frontier} (spans : ∀ w ∈ f.pending, w.start < w.stop)
    (waiting : ∀ w ∈ f.pending, f.closedThrough < w.stop) (threshold : Millis) :
    Closing f (f.closeThrough threshold).1 (f.closeThrough threshold).2 := by
  unfold closeThrough
  split
  · next hle =>
    refine ⟨rfl, rfl, Int64.le_refl _, ?_, ?_⟩
    · refine (List.filter_eq_nil_iff.2 fun w hw => ?_).symm
      simpa [isClosed] using waiting w hw
    · refine (List.filter_eq_self.2 fun w hw => ?_).symm
      simpa [isClosed] using waiting w hw
  · next hlt =>
    have hcloses : ∀ w ∈ f.pending, closesThrough threshold w = decide (w.stop ≤ threshold) := by
      intro w hw
      rw [Bool.eq_iff_iff, closesThrough_iff (spans w hw), decide_eq_true_iff]
    refine ⟨rfl, rfl, Int64.le_of_lt (Int64.not_le.1 hlt), ?_, ?_⟩
    · exact List.filter_congr hcloses
    · exact List.filter_congr fun w hw => by rw [hcloses w hw]; rfl

theorem Closing.mem_closed {f f' : Frontier} {closed : List Window} (h : Closing f closed f')
    {w : Window} : w ∈ closed ↔ w ∈ f.pending ∧ f'.isClosed w = true := by
  rw [h.handedOut, List.mem_filter]

theorem Closing.mem_left {f f' : Frontier} {closed : List Window} (h : Closing f closed f')
    {w : Window} : w ∈ f'.pending ↔ w ∈ f.pending ∧ f'.isClosed w = false := by
  rw [h.left, List.mem_filter, Bool.not_eq_true']

/-- Windows are handed out in the order in which they close. -/
theorem Closing.pairwise {f f' : Frontier} {closed : List Window} (h : Closing f closed f') :
    closed.Pairwise Window.ClosesBefore := by
  rw [h.handedOut]
  exact f.pending_ordered.filter _

theorem Closing.isClosed_mono {f f' : Frontier} {closed : List Window} (h : Closing f closed f')
    {w : Window} (hw : f.isClosed w = true) : f'.isClosed w = true :=
  isClosed_iff.2 (Int64.le_trans (isClosed_iff.1 hw) h.advances)

theorem Closing.sound {f f' : Frontier} {closed : List Window} (h : Closing f closed f')
    (hf : f.Sound)
    (hcaught : Millis.subClamped f'.watermark.timestamp f'.grace ≤ f'.closedThrough) : f'.Sound := by
  refine ⟨h.grace ▸ hf.grace_nonneg, fun w hw => ?_, fun w hw => ?_, hcaught⟩
  · exact hf.spans w (h.mem_left.1 hw).1
  · simpa [isClosed] using (h.mem_left.1 hw).2

/-! ## Events, flushes and the end -/

section
variable {f : Frontier}

theorem closing_onEvent (h : f.Sound) (t : Millis) :
    Closing f (f.onEvent t).1 (f.onEvent t).2 := by
  unfold onEvent
  split
  · next w _ =>
    have hc := closing_closeThrough (f := { f with watermark := w }) h.spans h.waiting
      (Millis.subClamped w.timestamp f.grace)
    exact ⟨hc.grace, hc.allowance, hc.advances, hc.handedOut, hc.left⟩
  · next _ =>
    have hwait : ∀ w ∈ f.pending, f.isClosed w = false := fun w hw => h.not_isClosed hw
    refine ⟨rfl, rfl, Int64.le_refl _, ?_, ?_⟩
    · exact (List.filter_eq_nil_iff.2 fun w hw => by simp [hwait w hw]).symm
    · exact (List.filter_eq_self.2 fun w hw => by simp [hwait w hw]).symm

/-- An event closes the windows whose end plus the grace period it reaches, whether or not it moves
the watermark: if it does not, an earlier event has closed them. -/
theorem isClosed_onEvent (caughtUp : Millis.subClamped f.watermark.timestamp f.grace ≤ f.closedThrough)
    (t : Millis) {w : Window} (hw : w.start < w.stop) :
    (f.onEvent t).2.isClosed w = true ↔
      f.isClosed w = true ∨ w.stop.toInt + f.grace.toInt ≤ t.toInt := by
  unfold onEvent
  split
  · next m hm =>
    have hmt : m.timestamp = t := congrArg _ (Watermark.advance?_eq_some_iff.1 hm).2
    rw [isClosed_closeThrough, hmt, Millis.le_subClamped_iff (Window.least_lt_stop hw)]
    rfl
  · next hm =>
    have hle := Watermark.advance?_eq_none_iff.1 hm
    refine ⟨.inl, fun h' => h'.elim id fun hreach => isClosed_iff.2 ?_⟩
    refine Int64.le_trans ?_ caughtUp
    rw [Millis.le_subClamped_iff (Window.least_lt_stop hw)]
    have := Int64.le_iff_toInt_le.1 hle
    omega

/-- An event closes no window that ends after its time. -/
theorem Sound.isClosed_onEvent_of_lt (h : f.Sound) {t : Millis} {w : Window} (hw : w.start < w.stop)
    (ht : t < w.stop) : (f.onEvent t).2.isClosed w = f.isClosed w := by
  have hbefore := Int64.lt_iff_toInt_lt.1 ht
  have hgrace := h.grace_nonneg
  rw [Bool.eq_iff_iff, isClosed_onEvent h.caughtUp t hw]
  exact or_iff_left (by omega)

theorem grace_closeThrough (threshold : Millis) :
    (f.closeThrough threshold).2.grace = f.grace := by
  unfold closeThrough
  split <;> rfl

theorem allowance_closeThrough (threshold : Millis) :
    (f.closeThrough threshold).2.allowance = f.allowance := by
  unfold closeThrough
  split <;> rfl

theorem watermark_closeThrough (threshold : Millis) :
    (f.closeThrough threshold).2.watermark = f.watermark := by
  unfold closeThrough
  split <;> rfl

/-- Closing never goes back, and reaches the threshold. -/
theorem le_closeThrough (threshold : Millis) :
    f.closedThrough ≤ (f.closeThrough threshold).2.closedThrough ∧
      threshold ≤ (f.closeThrough threshold).2.closedThrough := by
  unfold closeThrough
  split
  · next hle => exact ⟨Int64.le_refl _, hle⟩
  · next hlt => exact ⟨Int64.le_of_lt (Int64.not_le.1 hlt), Int64.le_refl _⟩

theorem closedThrough_le_onEvent (t : Millis) :
    f.closedThrough ≤ (f.onEvent t).2.closedThrough := by
  unfold onEvent
  split
  · next w _ => exact (le_closeThrough (f := { f with watermark := w }) _).1
  · exact Int64.le_refl _

theorem grace_onEvent (t : Millis) : (f.onEvent t).2.grace = f.grace := by
  unfold onEvent
  split
  · exact grace_closeThrough _
  · rfl

theorem allowance_onEvent (t : Millis) : (f.onEvent t).2.allowance = f.allowance := by
  unfold onEvent
  split
  · exact allowance_closeThrough _
  · rfl

theorem watermark_onEvent (t : Millis) : (f.onEvent t).2.watermark = f.watermark.advance t := by
  unfold onEvent Watermark.advance
  split
  · next w hw => rw [watermark_closeThrough, hw]; rfl
  · next hw => rw [hw]; rfl

theorem caughtUp_closeThrough
    (caughtUp : Millis.subClamped f.watermark.timestamp f.grace ≤ f.closedThrough)
    (threshold : Millis) :
    Millis.subClamped (f.closeThrough threshold).2.watermark.timestamp
      (f.closeThrough threshold).2.grace ≤ (f.closeThrough threshold).2.closedThrough := by
  rw [grace_closeThrough, watermark_closeThrough]
  exact Int64.le_trans caughtUp (le_closeThrough threshold).1

theorem caughtUp_onEvent
    (caughtUp : Millis.subClamped f.watermark.timestamp f.grace ≤ f.closedThrough) (t : Millis) :
    Millis.subClamped (f.onEvent t).2.watermark.timestamp (f.onEvent t).2.grace ≤
      (f.onEvent t).2.closedThrough := by
  unfold onEvent
  split
  · rw [grace_closeThrough, watermark_closeThrough]
    exact (le_closeThrough _).2
  · exact caughtUp

theorem sound_onEvent (h : f.Sound) (t : Millis) : (f.onEvent t).2.Sound :=
  (closing_onEvent h t).sound h (caughtUp_onEvent h.caughtUp t)

theorem sound_closeThrough (h : f.Sound) (threshold : Millis) :
    (f.closeThrough threshold).2.Sound :=
  (closing_closeThrough h.spans h.waiting threshold).sound h
    (caughtUp_closeThrough h.caughtUp threshold)

theorem closing_onFlush (h : f.Sound) (now : Millis) :
    Closing f (f.onFlush now).1 (f.onFlush now).2 :=
  closing_closeThrough h.spans h.waiting _

theorem isClosed_onFlush (now : Millis) {w : Window} (hw : w.start < w.stop) :
    (f.onFlush now).2.isClosed w = true ↔
      f.isClosed w = true ∨ w.stop.toInt + f.allowance.toInt ≤ now.toInt := by
  rw [onFlush, isClosed_closeThrough, Millis.le_subClamped_iff (Window.least_lt_stop hw)]

theorem sound_onFlush (h : f.Sound) (now : Millis) : (f.onFlush now).2.Sound :=
  sound_closeThrough h _

theorem closing_closeAll (h : f.Sound) : Closing f f.closeAll.1 f.closeAll.2 :=
  closing_closeThrough h.spans h.waiting _

theorem isClosed_closeAll (w : Window) : f.closeAll.2.isClosed w = true :=
  (isClosed_closeThrough f _ w).2 (.inr (Millis.le_greatest _))

theorem sound_closeAll (h : f.Sound) : f.closeAll.2.Sound :=
  sound_closeThrough h _

end

end WindowTally.Frontier
