import WindowTally.Proofs.Operations

/-!
# The tally and the frontier stay in step

The tally and the frontier are kept apart, and nothing but the operations ties them
together. In every state that a run reaches, a window that holds counts is pending,
and so not closed (`Coupled`, kept by `coupled_operate`). Therefore an operation
emits exactly the counts of the windows that it closes (`mem_operate`), and a record
closes none of its own windows (`filter_countedTally`).

What is emitted is in strict order over the whole run (`pairwise_emitsBefore`): a
window closes after all windows that were closed before it, so later operations
emit later windows (`pairwise_outputs`).
-/
namespace WindowTally

/-! ## The order of emission -/

namespace WordCount

/-- The order of emission: by the end of the window, then by its start, then by word. -/
def EmitsBefore (a b : WordCount) : Prop :=
  a.window.ClosesBefore b.window ∨ a.window = b.window ∧ a.word < b.word

/-- Word counts of one pair are not emitted one before the other. -/
theorem EmitsBefore.ne {a b : WordCount} (h : a.EmitsBefore b) :
    (a.word, a.window) ≠ (b.word, b.window) := by
  intro heq
  obtain ⟨hword, hwindow⟩ := Prod.mk.inj heq
  rcases h with h | ⟨-, h⟩
  · exact Window.ClosesBefore.irrefl (hwindow ▸ h)
  · exact String.lt_irrefl _ (hword ▸ h)

theorem EmitsBefore.irrefl {a : WordCount} : ¬ a.EmitsBefore a :=
  fun h => h.ne rfl

theorem EmitsBefore.trans {a b c : WordCount} (hab : a.EmitsBefore b) (hbc : b.EmitsBefore c) :
    a.EmitsBefore c := by
  rcases hab with h | ⟨h, hw⟩
  · rcases hbc with h' | ⟨h', -⟩
    · exact .inl (h.trans h')
    · exact .inl (h' ▸ h)
  · rcases hbc with h' | ⟨h', hw'⟩
    · exact .inl (h ▸ h')
    · exact .inr ⟨h.trans h', String.lt_trans hw hw'⟩

/-- A list in the order of emission is known from its members. -/
theorem eq_of_perm {cs ds : List WordCount} (hcs : cs.Pairwise EmitsBefore)
    (hds : ds.Pairwise EmitsBefore) (h : cs.Perm ds) : cs = ds := by
  refine h.eq_of_pairwise (fun a b _ _ hab hba => ?_) hcs hds
  exact absurd (hab.trans hba) EmitsBefore.irrefl

end WordCount

namespace Aggregator

/-- What holds of an aggregator at every time. -/
structure Coupled (a : Aggregator) : Prop where
  sound : a.frontier.Sound
  /-- Windows that hold counts are waiting to close. -/
  pending : ∀ c ∈ a.tally.entries, c.window ∈ a.frontier.pending
  /-- No entry counts nothing. -/
  positive : a.tally.Positive

theorem Coupled.not_isClosed {a : Aggregator} (h : a.Coupled) {c : WordCount}
    (hc : c ∈ a.tally.entries) : a.frontier.isClosed c.window = false :=
  h.sound.not_isClosed (h.pending c hc)

theorem coupled_ofSettings {s : ProcessingSettings} {a : Aggregator} (ha : ofSettings s = .ok a) :
    a.Coupled := by
  obtain ⟨windows, -, -, rfl⟩ := ofSettings_eq_ok ha
  refine ⟨Frontier.sound_make _ _, ?_, ?_⟩
  · intro c hc
    cases hc
  · intro c hc
    cases hc

/-! ## What an operation closes -/

section
variable {a : Aggregator} (h : a.frontier.Sound) (op : Operation)
include h

theorem sound_enrolled : (a.enrolled op).Sound := by
  cases op with
  | record r => exact Frontier.sound_enroll h fun w hw => Hopping.start_lt_stop_of_mem hw
  | flush now => exact h
  | drain => exact h

omit h in
theorem isClosed_enrolled (w : Window) : (a.enrolled op).isClosed w = a.frontier.isClosed w := by
  cases op with
  | record r => exact Frontier.isClosed_enroll w
  | flush now => rfl
  | drain => rfl

theorem closing_closed : Frontier.Closing (a.enrolled op) (a.closed op).1 (a.closed op).2 := by
  have henrolled := sound_enrolled h op
  cases op with
  | record r => exact Frontier.closing_onEvent henrolled _
  | flush now => exact Frontier.closing_onFlush henrolled _
  | drain => exact Frontier.closing_closeAll henrolled

theorem sound_operate : (a.operate op).2.frontier.Sound := by
  have henrolled := sound_enrolled h op
  rw [frontier_operate]
  cases op with
  | record r => exact Frontier.sound_onEvent henrolled _
  | flush now => exact Frontier.sound_onFlush henrolled _
  | drain => exact Frontier.sound_closeAll henrolled

/-- What is closed stays closed. -/
theorem isClosed_operate_mono {w : Window} (hw : a.frontier.isClosed w = true) :
    (a.operate op).2.frontier.isClosed w = true := by
  rw [frontier_operate]
  exact (closing_closed h op).isClosed_mono ((isClosed_enrolled op w).trans hw)

theorem nodup_closed : (a.closed op).1.Nodup := by
  refine (closing_closed h op).pairwise.imp ?_
  rintro v w hvw rfl
  exact Window.ClosesBefore.irrefl hvw

/-- The windows in which a record is counted are not closed by the record itself: it lies before
their ends. -/
theorem not_isClosed_opened {r : Record} {w : Window}
    (hw : w ∈ (a.frontier.enroll r.timestamp (a.windows.windowsAt r.timestamp)).1.opened) :
    (a.closed (.record r)).2.isClosed w = false := by
  obtain ⟨hmem, hopen⟩ := Frontier.mem_opened.1 hw
  have henrolled := sound_enrolled h (.record r)
  rw [closed, henrolled.isClosed_onEvent_of_lt (Hopping.start_lt_stop_of_mem hmem)
    (Hopping.contains_of_mem hmem).2, isClosed_enrolled, hopen]

/-- Counting a record changes no entry of the windows that it closes. -/
theorem filter_countedTally :
    ((a.countedTally op).entries.filter fun c => (a.closed op).2.isClosed c.window) =
      a.tally.entries.filter fun c => (a.closed op).2.isClosed c.window := by
  cases op with
  | record r => exact Tally.filter_countWords (fun w hw => not_isClosed_opened h hw) _ _
  | flush now => rfl
  | drain => rfl

end

/-! ## One operation -/

section
variable {a : Aggregator} (h : a.Coupled) (op : Operation)
include h

theorem positive_countedTally : (a.countedTally op).Positive := by
  cases op with
  | record r => exact Tally.positive_countWords h.positive _ _
  | flush now => exact h.positive
  | drain => exact h.positive

/-- The windows that hold counts once the record is counted are enrolled. -/
theorem window_mem_enrolled {c : WordCount} (hc : c ∈ (a.countedTally op).entries) :
    c.window ∈ (a.enrolled op).pending := by
  cases op with
  | record r =>
    refine Frontier.mem_pending_enroll.2 ?_
    rcases Tally.window_of_mem_countWords hc with hopen | ⟨d, hd, hdc⟩
    · exact .inr hopen
    · exact .inl (hdc ▸ h.pending d hd)
  | flush now => exact h.pending c hc
  | drain => exact h.pending c hc

theorem coupled_operate : (a.operate op).2.Coupled := by
  refine ⟨sound_operate h.sound op, fun c hc => ?_, fun c hc => ?_⟩
  · rw [entries_operate, List.mem_filter] at hc
    obtain ⟨hcounted, hleft⟩ := hc
    have hpending := window_mem_enrolled h op hcounted
    rw [frontier_operate, (closing_closed h.sound op).mem_left]
    refine ⟨hpending, ?_⟩
    rw [← Bool.not_eq_true]
    intro hclosed
    simp [(closing_closed h.sound op).mem_closed, hpending, hclosed] at hleft
  · rw [entries_operate, List.mem_filter] at hc
    exact positive_countedTally h op c hc.1

/-- An operation emits the counts that the tally held of the windows that are closed after it. -/
theorem mem_operate {c : WordCount} : c ∈ (a.operate op).1 ↔
    c ∈ a.tally.entries ∧ (a.operate op).2.frontier.isClosed c.window = true := by
  have hkept : c ∈ (a.countedTally op).entries ∧ (a.closed op).2.isClosed c.window = true ↔
      c ∈ a.tally.entries ∧ (a.closed op).2.isClosed c.window = true := by
    have hmem := congrArg (c ∈ ·) (filter_countedTally h.sound op)
    simpa only [List.mem_filter] using iff_of_eq hmem
  rw [operate_fst a (nodup_closed h.sound op), frontier_operate, ← hkept]
  simp only [List.mem_flatMap, List.mem_filter, decide_eq_true_eq]
  constructor
  · rintro ⟨w, hw, hc, rfl⟩
    exact ⟨hc, ((closing_closed h.sound op).mem_closed.1 hw).2⟩
  · rintro ⟨hc, hclosed⟩
    exact ⟨c.window,
      (closing_closed h.sound op).mem_closed.2 ⟨window_mem_enrolled h op hc, hclosed⟩, hc, rfl⟩

/-- An operation emits in the order of emission: windows in the order in which they close, words
within a window in the order of the tally. -/
theorem pairwise_operate : (a.operate op).1.Pairwise WordCount.EmitsBefore := by
  rw [operate_fst a (nodup_closed h.sound op), List.pairwise_flatMap]
  refine ⟨fun w _ => ?_, ?_⟩
  · refine ((a.countedTally op).ordered.filter _).imp_of_mem ?_
    intro c d hc hd hcd
    have hcw : c.window = w := by simpa using (List.mem_filter.1 hc).2
    have hdw : d.window = w := by simpa using (List.mem_filter.1 hd).2
    rcases hcd with hlists | hword
    · exact absurd (hcw ▸ hdw ▸ hlists) Window.ListsBefore.irrefl
    · exact .inr hword
  · refine (closing_closed h.sound op).pairwise.imp ?_
    intro v w hvw c hc d hd
    have hcv : c.window = v := by simpa using (List.mem_filter.1 hc).2
    have hdw : d.window = w := by simpa using (List.mem_filter.1 hd).2
    exact .inl (hcv ▸ hdw ▸ hvw)

theorem perm_operate : (a.operate op).1.Perm
    (a.tally.entries.filter fun c => (a.operate op).2.frontier.isClosed c.window) := by
  have hemitted : (a.operate op).1.Nodup := by
    refine (pairwise_operate h op).imp ?_
    rintro c d hcd rfl
    exact hcd.ne rfl
  have hentries : a.tally.entries.Nodup := by
    refine a.tally.ordered.imp ?_
    rintro c d hcd rfl
    exact hcd.ne ⟨rfl, rfl⟩
  refine (List.perm_ext_iff_of_nodup hemitted (hentries.filter _)).2 fun c => ?_
  rw [mem_operate h, List.mem_filter]

end

/-! ## Runs -/

section
variable {a : Aggregator} (h : a.Coupled) (ops : List Operation)
include h

theorem coupled_after : (a.after ops).Coupled := by
  induction ops generalizing a with
  | nil => exact h
  | cons op ops ih => exact ih (coupled_operate h op)

/-- Whatever a run emits was of a window not closed at its start. -/
theorem not_isClosed_of_mem_outputs {out : List WordCount} (hout : out ∈ a.outputs ops)
    {c : WordCount} (hc : c ∈ out) : a.frontier.isClosed c.window = false := by
  induction ops generalizing a with
  | nil => cases hout
  | cons op ops ih =>
    rw [outputs_cons, List.mem_cons] at hout
    rcases hout with rfl | hout
    · exact h.not_isClosed ((mem_operate h op).1 hc).1
    · have hafter := ih (coupled_operate h op) hout
      rw [← Bool.not_eq_true] at hafter ⊢
      exact fun hclosed => hafter (isClosed_operate_mono h.sound op hclosed)

/-- Later operations emit windows that end later. -/
theorem pairwise_outputs : (a.outputs ops).Pairwise fun out out' =>
    ∀ c ∈ out, ∀ d ∈ out', c.window.stop < d.window.stop := by
  induction ops generalizing a with
  | nil => exact List.Pairwise.nil
  | cons op ops ih =>
    refine List.pairwise_cons.2 ⟨fun out hout c hc d hd => ?_, ih (coupled_operate h op)⟩
    have hclosed := Frontier.isClosed_iff.1 ((mem_operate h op).1 hc).2
    have hopen := not_isClosed_of_mem_outputs (coupled_operate h op) ops hout hd
    rw [← Bool.not_eq_true, Frontier.isClosed_iff] at hopen
    exact Int64.lt_of_le_of_lt hclosed (Int64.not_le.1 hopen)

/-- What a run emits is in strict order of emission. -/
theorem pairwise_emitsBefore : (a.outputs ops).flatten.Pairwise WordCount.EmitsBefore := by
  refine List.pairwise_flatten.2 ⟨fun out hout => ?_, ?_⟩
  · induction ops generalizing a with
    | nil => cases hout
    | cons op ops ih =>
      rw [outputs_cons, List.mem_cons] at hout
      rcases hout with rfl | hout
      · exact pairwise_operate h op
      · exact ih (coupled_operate h op) hout
  · exact (pairwise_outputs h ops).imp fun hlt c hc d hd => .inl (.inl (hlt c hc d hd))

end

/-- In every state that a run from valid settings reaches, a window that holds counts is pending
and not closed; the next operation, whichever it is, emits exactly the counts of the windows that it
moves from open to closed. What the run emits is in strict order of emission, so no pair of a word
and a window is emitted twice, and no window by two operations. -/
theorem tally_in_step_with_frontier {s : ProcessingSettings} {a : Aggregator}
    (ha : ofSettings s = .ok a) (ops : List Operation) :
    (∀ c ∈ (a.after ops).tally.entries, c.window ∈ (a.after ops).frontier.pending ∧
      (a.after ops).frontier.closedThrough < c.window.stop) ∧
    (∀ op, ((a.after ops).operate op).1.Perm ((a.after ops).tally.entries.filter fun c =>
      !(a.after ops).frontier.isClosed c.window &&
        ((a.after ops).operate op).2.frontier.isClosed c.window)) ∧
    (a.outputs ops).flatten.Pairwise WordCount.EmitsBefore ∧
    ((a.outputs ops).flatten.map fun c => (c.word, c.window)).Nodup ∧
    (a.outputs ops).Pairwise fun out out' => ∀ c ∈ out, ∀ d ∈ out', c.window ≠ d.window := by
  have hstart := coupled_ofSettings ha
  have hreached := coupled_after hstart ops
  have hemits := pairwise_emitsBefore hstart ops
  refine ⟨fun c hc => ?_, fun op => ?_, hemits, ?_, ?_⟩
  · exact ⟨hreached.pending c hc, hreached.sound.waiting _ (hreached.pending c hc)⟩
  · refine (perm_operate hreached op).trans (List.Perm.of_eq (List.filter_congr fun c hc => ?_))
    rw [hreached.not_isClosed hc, Bool.not_false, Bool.true_and]
  · exact List.pairwise_map.2 (hemits.imp WordCount.EmitsBefore.ne)
  · refine (pairwise_outputs hstart ops).imp ?_
    intro out out' hlt c hc d hd heq
    exact Int64.lt_irrefl (heq ▸ hlt c hc d hd)

/-- The theorem for a run at the default settings in which two operations emit a window each. -/
theorem tally_in_step_at_default_settings : ∃ a, ofSettings {} = .ok a ∧
    a.outputs [.record ⟨0, [97, 32, 98], none⟩, .record ⟨5000, [97], none⟩, .drain] =
      [[], [⟨"a", 1, ⟨0, 5000⟩⟩, ⟨"b", 1, ⟨0, 5000⟩⟩], [⟨"a", 1, ⟨5000, 10000⟩⟩]] ∧
    ((a.outputs [.record ⟨0, [97, 32, 98], none⟩, .record ⟨5000, [97], none⟩,
      .drain]).flatten.map fun c => (c.word, c.window)).Nodup := by
  refine ⟨_, rfl, by decide +kernel, ?_⟩
  exact (tally_in_step_with_frontier (s := {}) rfl _).2.2.2.1

end Aggregator

end WindowTally
