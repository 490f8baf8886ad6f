import WindowTally.Proofs.Splitting

/-!
# Flushes and drains

Flushes and drains take in no record. They part the tally: the entries whose windows are
closed afterwards are emitted, and the others stay (`Aggregator.entries_of_takesIn_eq_false`).

Two flushes close what one flush at the later of their times closes
(`Frontier.onFlush_onFlush`), whichever of them comes first. Flushes that no record comes
between therefore come to the same as one flush at the largest of their times
(`Aggregator.flushes_coalesce`), in what they emit and in what they leave.

The tally lists its windows by start, and they close by end. All windows of an aggregator
have one length (`Aggregator.oneLength_after`), so both orders are the same, and a drain
emits the tally as it is listed (`Aggregator.drain_emits_listing`).
-/
namespace WindowTally

open WordCount (windowCount)

theorem WordCount.nodup_of_emitsBefore {cs : List WordCount} (h : cs.Pairwise EmitsBefore) :
    cs.Nodup := by
  refine h.imp ?_
  rintro c d hcd rfl
  exact hcd.irrefl

/-! ## Closing twice -/

theorem Millis.subClamped_max (a b c : Millis) :
    subClamped (max a b) c = max (subClamped a c) (subClamped b c) := by
  rw [← Int64.toInt_inj, toInt_max, toInt_subClamped, toInt_subClamped, toInt_subClamped, toInt_max]
  omega

namespace Frontier

theorem eq_of_fields {f g : Frontier} (grace : f.grace = g.grace)
    (allowance : f.allowance = g.allowance) (watermark : f.watermark = g.watermark)
    (pending : f.pending = g.pending) (closedThrough : f.closedThrough = g.closedThrough) :
    f = g := by
  cases f
  cases g
  subst grace allowance watermark pending closedThrough
  rfl

section
variable {f : Frontier}

theorem closedThrough_closeThrough (threshold : Millis) :
    (f.closeThrough threshold).2.closedThrough = max f.closedThrough threshold := by
  rw [← Int64.toInt_inj, Millis.toInt_max]
  unfold closeThrough
  split
  · next hle =>
    rw [Int64.le_iff_toInt_le] at hle
    exact (max_eq_left hle).symm
  · next hlt =>
    rw [Int64.le_iff_toInt_le] at hlt
    exact (max_eq_right (Int.le_of_not_le hlt)).symm

/-- Closing twice closes as much as closing once through the later threshold. -/
theorem closeThrough_closeThrough (h : f.Sound) (m n : Millis) :
    ((f.closeThrough m).2.closeThrough n).2 = (f.closeThrough (max m n)).2 := by
  have hfirst := closing_closeThrough h.spans h.waiting m
  have hafter := sound_closeThrough h m
  have hsecond := closing_closeThrough hafter.spans hafter.waiting n
  have hthrough : ((f.closeThrough m).2.closeThrough n).2.closedThrough =
      (f.closeThrough (max m n)).2.closedThrough := by
    simp only [closedThrough_closeThrough, ← Int64.toInt_inj, Millis.toInt_max]
    omega
  refine eq_of_fields ?_ ?_ ?_ ?_ hthrough
  · simp only [grace_closeThrough]
  · simp only [allowance_closeThrough]
  · simp only [watermark_closeThrough]
  · have hclosed (w : Window) : ((f.closeThrough m).2.closeThrough n).2.isClosed w =
        (f.closeThrough (max m n)).2.isClosed w := by
      simp only [isClosed, hthrough]
    rw [hsecond.left, hfirst.left, (closing_closeThrough h.spans h.waiting (max m n)).left,
      List.filter_filter]
    refine List.filter_congr fun w _ => ?_
    rw [← hclosed]
    -- what the first one closes is closed after the second one
    cases hw : (f.closeThrough m).2.isClosed w with
    | true => rw [hsecond.isClosed_mono hw]; rfl
    | false => exact Bool.and_true _

theorem onFlush_onFlush (h : f.Sound) (m n : Millis) :
    ((f.onFlush m).2.onFlush n).2 = (f.onFlush (max m n)).2 := by
  have hallowance : (f.onFlush m).2.allowance = f.allowance := allowance_closeThrough _
  unfold onFlush at hallowance ⊢
  rw [hallowance, closeThrough_closeThrough h, Millis.subClamped_max]

end

end Frontier

namespace Aggregator

/-! ## Operations without a record -/

theorem Coupled.withTotals {a : Aggregator} (h : a.Coupled) (delivered failed retries : UInt64) :
    (a.withTotals delivered failed retries).Coupled :=
  ⟨h.sound, h.pending, h.positive⟩

section
variable {a : Aggregator} (h : a.Coupled)
include h

/-- Without a record, the entries stay whose windows are not closed afterwards. -/
theorem entries_of_takesIn_eq_false {op : Operation} (hop : op.takesIn = false) :
    (a.operate op).2.tally.entries =
      a.tally.entries.filter fun c => !(a.operate op).2.frontier.isClosed c.window := by
  have hcounted : a.countedTally op = a.tally := by
    cases op with
    | record r => cases hop
    | flush now | drain => rfl
  rw [entries_operate, hcounted, frontier_operate]
  refine List.filter_congr fun c hc => ?_
  have hpending : c.window ∈ (a.enrolled op).pending := window_mem_enrolled h op (hcounted ▸ hc)
  rw [Bool.eq_iff_iff]
  simp [(closing_closed h.sound op).mem_closed, hpending]

/-! ## Two flushes -/

variable (m n : Millis)

theorem frontier_flush_flush : ((a.operate (.flush m)).2.operate (.flush n)).2.frontier =
    (a.operate (.flush (max m n))).2.frontier := by
  rw [frontier_operate, frontier_operate]
  simp only [closed, enrolled, frontier_operate]
  exact Frontier.onFlush_onFlush h.sound m n

/-- What is closed after the first of two flushes is closed after a flush at the later time. -/
theorem isClosed_flush_max {w : Window} (hw : (a.operate (.flush m)).2.frontier.isClosed w = true) :
    (a.operate (.flush (max m n))).2.frontier.isClosed w = true := by
  rw [← frontier_flush_flush h]
  exact isClosed_operate_mono (coupled_operate h _).sound (.flush n) hw

theorem entries_flush_flush : ((a.operate (.flush m)).2.operate (.flush n)).2.tally.entries =
    (a.operate (.flush (max m n))).2.tally.entries := by
  rw [entries_of_takesIn_eq_false (coupled_operate h _) rfl, entries_of_takesIn_eq_false h rfl,
    entries_of_takesIn_eq_false h rfl, frontier_flush_flush h, List.filter_filter]
  refine List.filter_congr fun c _ => ?_
  cases hc : (a.operate (.flush m)).2.frontier.isClosed c.window with
  | true => rw [isClosed_flush_max h m n hc]; rfl
  | false => exact Bool.and_true _

/-- Two flushes emit, one after the other, what one flush at the later time emits. -/
theorem emitted_flush_flush :
    (a.operate (.flush m)).1 ++ ((a.operate (.flush m)).2.operate (.flush n)).1 =
      (a.operate (.flush (max m n))).1 := by
  have hordered := pairwise_emitsBefore h [.flush m, .flush n]
  simp only [outputs, List.flatten_cons, List.flatten_nil, List.append_nil] at hordered
  refine WordCount.eq_of_perm hordered (pairwise_operate h _) ?_
  refine (List.perm_ext_iff_of_nodup (WordCount.nodup_of_emitsBefore hordered)
    (WordCount.nodup_of_emitsBefore (pairwise_operate h _))).2 fun c => ?_
  rw [List.mem_append, mem_operate h, mem_operate (coupled_operate h _), mem_operate h,
    entries_of_takesIn_eq_false h rfl, frontier_flush_flush h, List.mem_filter]
  constructor
  · rintro (⟨hc, hfirst⟩ | ⟨⟨hc, -⟩, hboth⟩)
    · exact ⟨hc, isClosed_flush_max h m n hfirst⟩
    · exact ⟨hc, hboth⟩
  · rintro ⟨hc, hboth⟩
    cases hfirst : (a.operate (.flush m)).2.frontier.isClosed c.window with
    | true => exact .inl ⟨hc, rfl⟩
    | false => exact .inr ⟨⟨hc, rfl⟩, hboth⟩

theorem stats_flush_flush : ((a.operate (.flush m)).2.operate (.flush n)).2.stats =
    (a.operate (.flush (max m n))).2.stats := by
  have hcounted (b : Aggregator) (now : Millis) : b.countedStats (.flush now) = b.stats := by
    simp [countedStats, countedWords, droppedWords, Operation.takesIn, Operation.isMalformed]
  have hapart := windows_apart h [.flush m] (.flush n)
  simp only [outputs, List.flatten_cons, List.flatten_nil, List.append_nil] at hapart
  have hwindows : windowCount (a.operate (.flush (max m n))).1 =
      windowCount (a.operate (.flush m)).1 +
        windowCount ((a.operate (.flush m)).2.operate (.flush n)).1 := by
    rw [← emitted_flush_flush h]
    exact WordCount.windowCount_append hapart
  have hlength := congrArg List.length (emitted_flush_flush h m n)
  rw [List.length_append] at hlength
  have hopen : ((a.operate (.flush m)).2.operate (.flush n)).2.tally.openWindows =
      (a.operate (.flush (max m n))).2.tally.openWindows :=
    congrArg Tally.windowsOf (entries_flush_flush h m n)
  rw [stats_operate _ (.flush n), stats_operate _ (.flush (max m n)), hcounted, hcounted, hopen,
    hwindows, ← hlength, stats_operate _ (.flush m), hcounted]
  simp only [UInt64.ofNat_add, UInt64.add_assoc]

/-- Two flushes leave what one flush at the later time leaves. -/
theorem operate_flush_flush : ((a.operate (.flush m)).2.operate (.flush n)).2 =
    (a.operate (.flush (max m n))).2 := by
  refine eq_of_fields ?_ ?_ (Tally.eq_of_entries ?_ (entries_flush_flush h m n))
    (frontier_flush_flush h m n) ?_ (stats_flush_flush h m n)
  · simp only [settings_operate]
  · simp only [windows_operate]
  · simp only [store_operate]
  · simp only [late_operate, countedLate]

omit m n in
/-- Several flushes come to one flush at the largest of their times. -/
theorem flushes_eq_flush (now : Millis) (later : List Millis) :
    (a.outputs ((now :: later).map .flush)).flatten =
        (a.operate (.flush (later.foldl max now))).1 ∧
      a.after ((now :: later).map .flush) = (a.operate (.flush (later.foldl max now))).2 := by
  induction later generalizing now with
  | nil => exact ⟨List.append_nil _, rfl⟩
  | cons next later ih =>
    obtain ⟨hemitted, hleft⟩ := ih (max now next)
    rw [List.map_cons, outputs_cons, List.flatten_cons] at hemitted
    have hafter (ops : List Operation) : a.after (.flush now :: .flush next :: ops) =
        a.after (.flush (max now next) :: ops) := by
      rw [after, after, List.foldl_cons, List.foldl_cons, List.foldl_cons, operate_flush_flush h]
    rw [List.foldl_cons, ← hemitted, ← hleft, ← operate_flush_flush h, ← emitted_flush_flush h]
    refine ⟨?_, hafter _⟩
    simp only [List.map_cons, outputs_cons, List.flatten_cons, List.append_assoc]

end

/-- In every state that operations and deliveries reach, flushes that no record comes between emit
what one flush at the largest of their times emits, and leave what it leaves: the same counts, the
same frontier and the same statistics. -/
theorem flushes_coalesce {s : ProcessingSettings} {a b : Aggregator} (ha : ofSettings s = .ok a)
    {ops : List Operation} {delivered failed retries : UInt64}
    (hb : b = (a.after ops).withTotals delivered failed retries) {times : List Millis}
    (hne : times ≠ []) :
    (b.outputs (times.map .flush)).flatten = (b.flush (times.max hne)).1 ∧
      b.after (times.map .flush) = (b.flush (times.max hne)).2 := by
  have hcoupled : b.Coupled :=
    hb ▸ (coupled_after (coupled_ofSettings ha) ops).withTotals delivered failed retries
  cases times with
  | nil => exact absurd rfl hne
  | cons now later => exact flushes_eq_flush hcoupled now later

/-- The theorem for three flushes that close a window each but for the last, before which the clock
went back. -/
theorem flushes_coalesce_when_clock_goes_back : ∃ a b, ofSettings { grace := 10000 } = .ok a ∧
    b = (a.after [.record ⟨0, [97], none⟩, .record ⟨5000, [98], none⟩]).withTotals 0 0 0 ∧
    b.outputs ([7000, 10000, 6000].map .flush) =
      [[⟨"a", 1, ⟨0, 5000⟩⟩], [⟨"b", 1, ⟨5000, 10000⟩⟩], []] ∧
    (b.flush 10000).1 = [⟨"a", 1, ⟨0, 5000⟩⟩, ⟨"b", 1, ⟨5000, 10000⟩⟩] ∧
    b.after ([7000, 10000, 6000].map .flush) = (b.flush 10000).2 := by
  obtain ⟨a, ha⟩ : ∃ a, ofSettings { grace := 10000 } = .ok a := ⟨_, rfl⟩
  obtain ⟨b, hb⟩ : ∃ b, b = (a.after [.record ⟨0, [97], none⟩,
    .record ⟨5000, [98], none⟩]).withTotals 0 0 0 := ⟨_, rfl⟩
  have hne : ([7000, 10000, 6000] : List Millis) ≠ [] := by decide
  have hmax : ([10000, 6000] : List Millis).foldl max 7000 = 10000 := by decide +kernel
  obtain ⟨hemitted, hleft⟩ := flushes_coalesce ha hb hne
  rw [show ([7000, 10000, 6000] : List Millis).max hne = 10000 from hmax] at hemitted hleft
  have hthree : b.outputs ([7000, 10000, 6000].map .flush) =
      [[⟨"a", 1, ⟨0, 5000⟩⟩], [⟨"b", 1, ⟨5000, 10000⟩⟩], []] := by
    cases ha
    cases hb
    decide +kernel
  exact ⟨a, b, ha, hb, hthree, hemitted.symm.trans (congrArg List.flatten hthree), hleft⟩

/-! ## Windows of one length -/

end Aggregator

/-- Windows of one length close in the order in which they are listed. -/
theorem Window.ListsBefore.closesBefore {v w : Window} (h : v.ListsBefore w)
    (hlength : v.length = w.length) : v.ClosesBefore w := by
  simp only [ListsBefore, ClosesBefore, length, Int64.lt_iff_toInt_lt, ← Int64.toInt_inj] at *
  omega

theorem WordCount.ListsBefore.emitsBefore {c d : WordCount} (h : c.ListsBefore d)
    (hlength : c.window.length = d.window.length) : c.EmitsBefore d := by
  rcases h with hwindow | hword
  · exact .inl (hwindow.closesBefore hlength)
  · exact .inr hword

namespace Aggregator

/-- All windows that hold counts have the length that the aggregator's windows have. -/
def OneLength (a : Aggregator) : Prop :=
  ∀ c ∈ a.tally.entries, c.window.length = a.windows.length.toInt

theorem oneLength_operate {a : Aggregator} (h : a.OneLength) (op : Operation) :
    (a.operate op).2.OneLength := by
  intro c hc
  rw [entries_operate, List.mem_filter] at hc
  rw [windows_operate]
  obtain ⟨hcounted, -⟩ := hc
  cases op with
  | record r =>
    rcases Tally.window_of_mem_countWords hcounted with hopen | ⟨d, hd, hdc⟩
    · obtain ⟨-, hstop, -⟩ := Hopping.mem_windowsAt_iff.1 (Frontier.mem_opened.1 hopen).1
      rw [Window.length, hstop]
      omega
    · exact hdc ▸ h d hd
  | flush now | drain => exact h c hcounted

theorem oneLength_after {a : Aggregator} (h : a.OneLength) (ops : List Operation) :
    (a.after ops).OneLength := by
  induction ops generalizing a with
  | nil => exact h
  | cons op ops ih => exact ih (oneLength_operate h op)

theorem oneLength_ofSettings {s : ProcessingSettings} {a : Aggregator} (ha : ofSettings s = .ok a) :
    a.OneLength := by
  obtain ⟨-, -, -, hentries⟩ := frontier_ofSettings ha
  intro c hc
  rw [hentries] at hc
  cases hc

/-! ## Drains -/

theorem isClosed_drain (a : Aggregator) (w : Window) :
    (a.operate .drain).2.frontier.isClosed w = true := by
  rw [frontier_operate]
  exact Frontier.isClosed_closeAll w

/-- A second drain emits nothing and changes nothing. -/
theorem drain_drain (a : Aggregator) : a.drain.2.drain = ([], a.drain.2) := by
  have hopen : a.drain.2.stats.openWindows = UInt64.ofNat a.drain.2.tally.openWindows.length :=
    congrArg Stats.openWindows (stats_operate a .drain)
  have hfrontier : a.drain.2.frontier = a.frontier.closeAll.2 := frontier_operate a .drain
  have hthrough : Millis.greatest ≤ a.drain.2.frontier.closedThrough :=
    hfrontier ▸ (Frontier.le_closeThrough Millis.greatest).2
  generalize a.drain.2 = b at hopen hthrough ⊢
  have hclosed : b.frontier.closeAll = ([], b.frontier) := if_pos hthrough
  unfold drain
  rw [hclosed]
  simp only [retire, emitWindows, ← hopen]

section
variable {a : Aggregator} (h : a.Coupled)
include h

/-- A drain emits the entries in the order in which they are listed. -/
theorem emitted_drain (hlength : a.OneLength) : (a.operate .drain).1 = a.tally.entries := by
  have hall : (a.tally.entries.filter fun c =>
      (a.operate .drain).2.frontier.isClosed c.window) = a.tally.entries :=
    List.filter_eq_self.2 fun c _ => isClosed_drain a c.window
  have hordered : a.tally.entries.Pairwise WordCount.EmitsBefore :=
    a.tally.ordered.imp_of_mem fun {c d} hc hd hcd =>
      hcd.emitsBefore ((hlength c hc).trans (hlength d hd).symm)
  exact WordCount.eq_of_perm (pairwise_operate h _) hordered (hall ▸ perm_operate h .drain)

theorem stats_drain (hlength : a.OneLength) : (a.operate .drain).2.stats = { a.stats with
    windows := a.stats.windows + UInt64.ofNat (windowCount a.tally.entries)
    emitted := a.stats.emitted + UInt64.ofNat a.tally.entries.length
    openWindows := 0 } := by
  have hopen : (a.operate .drain).2.tally.openWindows = [] :=
    congrArg Tally.windowsOf (entries_drain h)
  rw [stats_operate, emitted_drain h hlength, hopen]
  simp [countedStats, countedWords, droppedWords, Operation.takesIn, Operation.isMalformed]

end

/-- In every state that operations and deliveries reach, a drain emits the tally as it is listed,
entry by entry. It leaves no count and no open window, notes what it has emitted in the
statistics, and leaves nothing for a second drain. -/
theorem drain_emits_listing {s : ProcessingSettings} {a b : Aggregator} (ha : ofSettings s = .ok a)
    {ops : List Operation} {delivered failed retries : UInt64}
    (hb : b = (a.after ops).withTotals delivered failed retries) :
    b.drain.1 = b.tally.entries ∧ b.drain.2.tally.entries = [] ∧
      b.drain.2.stats = { b.stats with
        windows := b.stats.windows + UInt64.ofNat (windowCount b.tally.entries)
        emitted := b.stats.emitted + UInt64.ofNat b.tally.entries.length
        openWindows := 0 } ∧
      b.drain.2.drain = ([], b.drain.2) := by
  have hcoupled : b.Coupled :=
    hb ▸ (coupled_after (coupled_ofSettings ha) ops).withTotals delivered failed retries
  have hlength : b.OneLength := by
    rw [hb]
    exact oneLength_after (oneLength_ofSettings ha) ops
  exact ⟨emitted_drain hcoupled hlength, entries_drain hcoupled, stats_drain hcoupled hlength,
    drain_drain b⟩

/-- The theorem for three overlapping windows, the first of which a flush has closed before. -/
theorem drain_emits_overlapping_windows : ∃ a b,
    ofSettings { windowLength := 4, advance := 2, grace := 100 } = .ok a ∧
    b = (a.after [.record ⟨3, [98, 32, 97], none⟩, .record ⟨5, [97], none⟩,
      .flush 4]).withTotals 2 0 0 ∧
    b.tally.entries = [⟨"a", 2, ⟨2, 6⟩⟩, ⟨"b", 1, ⟨2, 6⟩⟩, ⟨"a", 1, ⟨4, 8⟩⟩] ∧
    b.drain.1 = [⟨"a", 2, ⟨2, 6⟩⟩, ⟨"b", 1, ⟨2, 6⟩⟩, ⟨"a", 1, ⟨4, 8⟩⟩] ∧
    b.drain.2.tally.entries = [] ∧
    (b.drain.2.stats.windows, b.drain.2.stats.emitted, b.drain.2.stats.openWindows) = (3, 5, 0) ∧
    b.drain.2.drain = ([], b.drain.2) := by
  obtain ⟨a, ha⟩ :
      ∃ a, ofSettings { windowLength := 4, advance := 2, grace := 100 } = .ok a := ⟨_, rfl⟩
  obtain ⟨b, hb⟩ : ∃ b, b = (a.after [.record ⟨3, [98, 32, 97], none⟩,
    .record ⟨5, [97], none⟩, .flush 4]).withTotals 2 0 0 := ⟨_, rfl⟩
  obtain ⟨hemitted, hleft, hstats, hagain⟩ := drain_emits_listing ha hb
  have hlisted : b.tally.entries =
      [⟨"a", 2, ⟨2, 6⟩⟩, ⟨"b", 1, ⟨2, 6⟩⟩, ⟨"a", 1, ⟨4, 8⟩⟩] := by
    cases ha
    cases hb
    decide +kernel
  have hbefore : (b.stats.windows, b.stats.emitted) = (1, 2) := by
    cases ha
    cases hb
    decide +kernel
  obtain ⟨hwindows, hentries⟩ := Prod.mk.inj hbefore
  refine ⟨a, b, ha, hb, hlisted, hemitted.trans hlisted, hleft, ?_, hagain⟩
  rw [hstats, hlisted]
  dsimp only
  rw [hwindows, hentries]
  decide +kernel

end Aggregator

end WindowTally
