import WindowTally.Proofs.Reading
import WindowTally.Proofs.Statistics
import WindowTally.Proofs.Words

/-!
# Splitting a record

A text may be brought by one record, or cut at a break and brought by two records of one
time (`Splits`). An aggregator makes no difference between them but that it took in one
record more (`Aggregator.ingest_split`).

What the frontier does with a record depends on the time of the record alone, and a second
record of that time finds the frontier where the first has left it: the event closes no
window that the time lies in, so the second record is admitted to the same windows with the
same lateness, registers nothing new and closes nothing (`Frontier.enroll_onEvent`,
`Frontier.onEvent_of_le`). So everything is emitted by the first record, and the words of
both go where the words of the whole go. Counts stop at the largest number, and totals wrap;
neither sees whether words come at once or one part after the other.
-/
namespace WindowTally

/-! ## The same time again -/

theorem Millis.max_max_self (a b : Millis) : max (max a b) b = max a b := by
  rw [← Int64.toInt_inj, toInt_max, toInt_max]
  omega

/-- An event does not change how late its own time is. -/
theorem Watermark.lateness_advance (w : Watermark) (t : Millis) :
    (w.advance t).lateness t = w.lateness t := by
  rw [← Int64.toInt_inj, toInt_lateness, toInt_lateness, timestamp_advance, Millis.toInt_max]
  omega

namespace Frontier

section
variable {f : Frontier} {t : Millis}

/-- A pending window is registered already. -/
theorem register_of_mem {w : Window} (hw : w ∈ f.pending) : f.register w = f := by
  have hput := Ordered.put_of_mem Window.closesBefore_trans
    (fun _ => Window.ClosesBefore.irrefl) f.pending_ordered hw
  unfold register
  congr

theorem foldl_register_of_mem {ws : List Window} (hws : ∀ w ∈ ws, w ∈ f.pending) :
    ws.foldl register f = f := by
  induction ws with
  | nil => rfl
  | cons w ws ih =>
    rw [List.foldl_cons, register_of_mem (hws w List.mem_cons_self)]
    exact ih fun v hv => hws v (List.mem_cons_of_mem _ hv)

/-- An event that does not move the watermark does nothing. -/
theorem onEvent_of_le (h : t ≤ f.watermark.timestamp) : f.onEvent t = ([], f) := by
  rw [onEvent, Watermark.advance?_eq_none_iff.2 h]

theorem le_watermark_onEvent (f : Frontier) (t : Millis) :
    t ≤ (f.onEvent t).2.watermark.timestamp := by
  rw [watermark_onEvent, Watermark.timestamp_advance, Int64.le_iff_toInt_le, Millis.toInt_max]
  omega

/-- Once a record is enrolled and its event has come, a record of the same time is admitted as the
first one was and leaves the frontier as it is. -/
theorem enroll_onEvent (h : f.Sound) {ws : List Window}
    (hws : ∀ w ∈ ws, w.start ≤ t ∧ t < w.stop) :
    ((f.enroll t ws).2.onEvent t).2.enroll t ws =
      ((f.enroll t ws).1, ((f.enroll t ws).2.onEvent t).2) := by
  have hspan : ∀ w ∈ ws, w.start < w.stop := fun w hw =>
    Int64.lt_of_le_of_lt (hws w hw).1 (hws w hw).2
  have henrolled := sound_enroll (t := t) h hspan
  -- the event closes no window that its time lies in
  have hclosed : ∀ w ∈ ws, ((f.enroll t ws).2.onEvent t).2.isClosed w = f.isClosed w := by
    intro w hw
    rw [henrolled.isClosed_onEvent_of_lt (hspan w hw) (hws w hw).2, isClosed_enroll]
  have hopened : (ws.filter fun w => !((f.enroll t ws).2.onEvent t).2.isClosed w) =
      (f.enroll t ws).1.opened :=
    List.filter_congr fun w hw => by rw [hclosed w hw]
  have hlate : ((f.enroll t ws).2.onEvent t).2.watermark.lateness t = f.watermark.lateness t := by
    rw [watermark_onEvent, watermark_enroll, Watermark.lateness_advance]
  have hpending : ∀ w ∈ (f.enroll t ws).1.opened, w ∈ ((f.enroll t ws).2.onEvent t).2.pending := by
    intro w hw
    obtain ⟨hmem, hopen⟩ := mem_opened.1 hw
    rw [(closing_onEvent henrolled t).mem_left, hclosed w hmem]
    exact ⟨mem_pending_enroll.2 (.inr hw), hopen⟩
  rw [enroll, hopened, hlate, foldl_register_of_mem hpending]
  rfl

end

end Frontier

/-! ## Parts of a record -/

/-- `whole` is text, and at its time `first` and then `second` bring its words between them. -/
structure Splits (whole first second : Record) : Prop where
  time_first : first.timestamp = whole.timestamp
  time_second : second.timestamp = whole.timestamp
  isText : ∀ r ∈ [whole, first, second], (Operation.record r).isMalformed = false
  words : (Operation.record whole).words =
    (Operation.record first).words ++ (Operation.record second).words

theorem Splits.time_parts {whole first second : Record} (hs : Splits whole first second) :
    second.timestamp = first.timestamp :=
  hs.time_second.trans hs.time_first.symm

/-- A text that is cut at a break splits the record that brings it. -/
theorem splits_of_break {c : Char} (hc : Text.isWordChar c = false) (xs ys : List Char) (t : Millis)
    (k k₁ k₂ : Option String) :
    Splits ⟨t, Utf8.encode (xs ++ c :: ys), k⟩ ⟨t, Utf8.encode xs, k₁⟩ ⟨t, Utf8.encode ys, k₂⟩ where
  time_first := rfl
  time_second := rfl
  isText := by simp [Operation.isMalformed, Text.wordsOfBytes_encode]
  words := by simp [Operation.words, Text.wordsOfBytes_encode, Text.words_append_cons hc]

theorem Tally.eq_of_entries {t u : Tally} (hstore : t.store = u.store)
    (hentries : t.entries = u.entries) : t = u := by
  cases t
  cases u
  subst hstore hentries
  rfl

namespace Aggregator

theorem eq_of_fields {a b : Aggregator} (settings : a.settings = b.settings)
    (windows : a.windows = b.windows) (tally : a.tally = b.tally) (frontier : a.frontier = b.frontier)
    (late : a.late = b.late) (stats : a.stats = b.stats) : a = b := by
  cases a
  cases b
  subst settings windows tally frontier late stats
  rfl

/-! ## Two records of one time -/

section
variable {a : Aggregator} {r r' : Record}

/-- What becomes of a record depends on its time alone. -/
theorem admission_congr (ht : r'.timestamp = r.timestamp) : a.admission r' = a.admission r := by
  rw [admission, admission, ht]

theorem closed_congr (ht : r'.timestamp = r.timestamp) :
    a.closed (.record r') = a.closed (.record r) := by
  simp only [closed, enrolled, ht]

variable (h : a.Coupled)
include h

theorem operate_fst_congr (ht : r'.timestamp = r.timestamp) :
    (a.operate (.record r')).1 = (a.operate (.record r)).1 := by
  have hperm := perm_operate h (.record r')
  rw [frontier_operate, closed_congr ht, ← frontier_operate] at hperm
  exact WordCount.eq_of_perm (pairwise_operate h _) (pairwise_operate h _)
    (hperm.trans (perm_operate h (.record r)).symm)

theorem enroll_again (ht : r'.timestamp = r.timestamp) :
    (a.operate (.record r)).2.frontier.enroll r'.timestamp (a.windows.windowsAt r'.timestamp) =
      (a.admission r, (a.operate (.record r)).2.frontier) := by
  rw [frontier_operate, ht]
  exact Frontier.enroll_onEvent h.sound fun w hw => Hopping.contains_of_mem hw

/-- The second record of a time is admitted as the first one was. -/
theorem admission_again (ht : r'.timestamp = r.timestamp) :
    (a.operate (.record r)).2.admission r' = a.admission r := by
  rw [admission, windows_operate, enroll_again h ht]

/-- The second record of a time closes nothing. -/
theorem closed_again (ht : r'.timestamp = r.timestamp) :
    (a.operate (.record r)).2.closed (.record r') = ([], (a.operate (.record r)).2.frontier) := by
  rw [closed, enrolled, windows_operate, enroll_again h ht, ht]
  refine Frontier.onEvent_of_le ?_
  rw [frontier_operate]
  exact Frontier.le_watermark_onEvent _ _

theorem operate_again_fst (ht : r'.timestamp = r.timestamp) :
    ((a.operate (.record r)).2.operate (.record r')).1 = [] := by
  have hnone := closed_again h ht
  rw [operate_fst _ (by simp [hnone]), hnone]
  rfl

end

/-! ## The parts and the whole -/

section
variable {a : Aggregator} (h : a.Coupled) {whole first second : Record}
  (hs : Splits whole first second)
include h hs

/-- The frontier is left by both parts as the whole leaves it. -/
theorem frontier_split : (a.operate (.record first)).2.frontier =
      (a.operate (.record whole)).2.frontier ∧
    ((a.operate (.record first)).2.operate (.record second)).2.frontier =
      (a.operate (.record whole)).2.frontier := by
  have hfirst : (a.operate (.record first)).2.frontier =
      (a.operate (.record whole)).2.frontier := by
    rw [frontier_operate, frontier_operate, closed_congr hs.time_first]
  refine ⟨hfirst, ?_⟩
  rw [frontier_operate, closed_again h hs.time_parts, hfirst]

theorem emitted_split : (a.operate (.record whole)).1 = (a.operate (.record first)).1 ∧
    ((a.operate (.record first)).2.operate (.record second)).1 = [] :=
  ⟨operate_fst_congr h hs.time_first.symm,
    operate_again_fst h hs.time_parts⟩

theorem tally_split : ((a.operate (.record first)).2.operate (.record second)).2.tally =
    (a.operate (.record whole)).2.tally := by
  have hafter := coupled_operate h (.record first)
  obtain ⟨hfirst, hsecond⟩ := frontier_split h hs
  refine Tally.eq_of_entries ?_ ?_
  · rw [store_operate, store_operate, store_operate]
  · refine WordCount.eq_of_amount_eq_of_listed (Tally.ordered _) (Tally.ordered _)
      (coupled_operate hafter _).positive (coupled_operate h _).positive fun word w => ?_
    have hocc : (Operation.record whole).occurrences a.windows word w =
        (Operation.record first).occurrences a.windows word w +
          (Operation.record second).occurrences a.windows word w := by
      simp only [Operation.occurrences, hs.time_first, hs.time_second, hs.words, List.count_append]
      split <;> rfl
    rw [amount_operate hafter, amount_operate h, amount_operate h, hfirst, hsecond, hocc,
      windows_operate]
    split
    · rfl
    · omega

/-- Both parts are admitted as the whole is. -/
theorem admission_split : a.admission first = a.admission whole ∧
    (a.operate (.record first)).2.admission second = a.admission whole := by
  have hfirst : a.admission first = a.admission whole := admission_congr hs.time_first
  refine ⟨hfirst, ?_⟩
  rw [admission_again h hs.time_parts, hfirst]

/-- The words of the whole are counted if those of the parts are, and dropped if those are. -/
theorem countedWords_split : a.countedWords (.record whole) =
      a.countedWords (.record first) +
        (a.operate (.record first)).2.countedWords (.record second) ∧
    a.droppedWords (.record whole) =
      a.droppedWords (.record first) +
        (a.operate (.record first)).2.droppedWords (.record second) := by
  obtain ⟨hfirst, hsecond⟩ := admission_split h hs
  have hlength := congrArg List.length hs.words
  rw [List.length_append] at hlength
  have hcounted (b : Aggregator) (r : Record) : b.countedWords (.record r) =
      if (b.admission r).isDropped then 0 else (Operation.record r).words.length := rfl
  have hdropped (b : Aggregator) (r : Record) : b.droppedWords (.record r) =
      if (b.admission r).isDropped then (Operation.record r).words.length else 0 := rfl
  rw [hcounted, hcounted, hcounted, hdropped, hdropped, hdropped, hfirst, hsecond, hlength]
  split
  · exact ⟨rfl, rfl⟩
  · exact ⟨rfl, rfl⟩

theorem stats_split : ((a.operate (.record first)).2.operate (.record second)).2.stats =
    { (a.operate (.record whole)).2.stats with
      records := (a.operate (.record whole)).2.stats.records + 1 } := by
  obtain ⟨hfirst, hsecond⟩ := frontier_split h hs
  rw [frontier_operate, frontier_operate] at hfirst hsecond
  obtain ⟨hemitted, hnothing⟩ := emitted_split h hs
  obtain ⟨hcounted, hdropped⟩ := countedWords_split h hs
  have htaken (r : Record) : [Operation.record r].countP Operation.takesIn = 1 := rfl
  have hmalformed : ∀ r ∈ [whole, first, second],
      [Operation.record r].countP Operation.isMalformed = 0 := by
    intro r hr
    rw [List.countP_singleton, hs.isText r hr]
    rfl
  -- the parts, told from the whole wherever they have it in common
  simp only [stats_operate _ (.record second), stats_operate _ (.record whole), countedStats,
    tally_split h hs, hnothing, hemitted, hcounted, hdropped, hsecond, htaken,
    hmalformed whole (by simp), hmalformed second (by simp)]
  simp only [stats_operate _ (.record first), countedStats, htaken, hfirst,
    hmalformed first (by simp), Operation.takesIn, if_true, Millis.max_max_self, UInt64.ofNat_add,
    UInt64.add_assoc]
  simp

theorem late_split : ((a.operate (.record first)).2.operate (.record second)).2.late =
    (a.operate (.record whole)).2.late := by
  obtain ⟨hfirst, hsecond⟩ := admission_split h hs
  have hcounted (b : Aggregator) (r : Record) : b.countedLate (.record r) =
      { dropped := b.late.dropped + UInt64.ofNat
          (if (b.admission r).isDropped then (Operation.record r).words.length else 0)
        accepted := b.late.accepted + UInt64.ofNat
          (if (b.admission r).isLateButOpen then (Operation.record r).words.length else 0)
        largest := (latenesses (b.admission r) (Operation.record r).words).foldl max b.late.largest } :=
    rfl
  have hsum (late : Bool) : (if late then (Operation.record whole).words.length else 0) =
      (if late then (Operation.record first).words.length else 0) +
        (if late then (Operation.record second).words.length else 0) := by
    rw [hs.words, List.length_append]
    split <;> rfl
  simp only [late_operate, hcounted, hfirst, hsecond, hsum, UInt64.ofNat_add, UInt64.add_assoc]
  rw [hs.words, latenesses_append, List.foldl_append]

/-- The parts emit what the whole emits, and leave what it leaves but for the count of records. -/
theorem operate_split : (a.operate (.record whole)).1 =
      (a.operate (.record first)).1 ++
        ((a.operate (.record first)).2.operate (.record second)).1 ∧
    ((a.operate (.record first)).2.operate (.record second)).2 =
      { (a.operate (.record whole)).2 with
        stats := { (a.operate (.record whole)).2.stats with
          records := (a.operate (.record whole)).2.stats.records + 1 } } := by
  obtain ⟨hemitted, hnothing⟩ := emitted_split h hs
  refine ⟨by rw [hemitted, hnothing, List.append_nil], ?_⟩
  refine eq_of_fields ?_ ?_ (tally_split h hs) (frontier_split h hs).2 (late_split h hs)
    (stats_split h hs)
  · rw [settings_operate, settings_operate]
    exact (settings_operate _ _).symm
  · rw [windows_operate, windows_operate]
    exact (windows_operate _ _).symm

end

/-- A record closes no window that its own time lies in. -/
theorem not_contains_of_mem_operate {a : Aggregator} (h : a.Coupled) {r : Record} {c : WordCount}
    (hc : c ∈ (a.operate (.record r)).1) : c.window.contains r.timestamp = false := by
  obtain ⟨hentry, hclosed⟩ := (mem_operate h _).1 hc
  have hspan := h.sound.spans _ (h.pending c hentry)
  have hafter : ¬ r.timestamp < c.window.stop := by
    intro hbefore
    rw [frontier_operate, closed,
      (sound_enrolled h.sound (.record r)).isClosed_onEvent_of_lt hspan hbefore, isClosed_enrolled,
      h.not_isClosed hentry] at hclosed
    cases hclosed
  rw [Window.contains, decide_eq_false hafter, Bool.and_false]

/-- In every state that operations and deliveries reach, a record whose text is cut at a break
comes to the same as two records of its time that bring what stands before the break and what stands
after it: they emit the same and leave the same, but that one record more was taken in. And no record
emits counts of a window that its own time lies in. -/
theorem ingest_split {s : ProcessingSettings} {a b : Aggregator} (ha : ofSettings s = .ok a)
    {ops : List Operation} {delivered failed retries : UInt64}
    (hb : b = (a.after ops).withTotals delivered failed retries) {c : Char}
    (hc : Text.isWordChar c = false) (xs ys : List Char) (t : Millis) (k k₁ k₂ : Option String) :
    let whole := b.ingest ⟨t, Utf8.encode (xs ++ c :: ys), k⟩
    let first := b.ingest ⟨t, Utf8.encode xs, k₁⟩
    let second := first.2.ingest ⟨t, Utf8.encode ys, k₂⟩
    whole.1 = first.1 ++ second.1 ∧
    second.2 = { whole.2 with
      stats := { whole.2.stats with records := whole.2.stats.records + 1 } } ∧
    ∀ r, ∀ d ∈ (b.ingest r).1, d.window.contains r.timestamp = false := by
  have hreached := coupled_after (coupled_ofSettings ha) ops
  have hcoupled : b.Coupled := by
    rw [hb]
    exact ⟨hreached.sound, hreached.pending, hreached.positive⟩
  obtain ⟨hemitted, hleft⟩ := operate_split hcoupled (splits_of_break hc xs ys t k k₁ k₂)
  exact ⟨hemitted, hleft, fun r d hd => not_contains_of_mem_operate hcoupled hd⟩

/-- The theorem in a state in which one of the record's two windows has closed and the other is open,
so that its words are late but counted. -/
theorem ingest_split_partly_late : ∃ a b, ofSettings { windowLength := 4, advance := 2 } = .ok a ∧
    b = (a.after [.record ⟨5, [97], none⟩, .record ⟨6, [98], none⟩]).withTotals 1 0 0 ∧
    b.admission ⟨5, [], none⟩ = ⟨[⟨4, 8⟩], 1⟩ ∧ Text.isWordChar '-' = false ∧
    let whole := b.ingest ⟨5, Utf8.encode (['a'] ++ '-' :: ['B']), none⟩
    let first := b.ingest ⟨5, Utf8.encode ['a'], none⟩
    let second := first.2.ingest ⟨5, Utf8.encode ['B'], none⟩
    whole.1 = first.1 ++ second.1 ∧
    second.2 = { whole.2 with
      stats := { whole.2.stats with records := whole.2.stats.records + 1 } } ∧
    ∀ r, ∀ d ∈ (b.ingest r).1, d.window.contains r.timestamp = false := by
  obtain ⟨a, ha⟩ : ∃ a, ofSettings { windowLength := 4, advance := 2 } = .ok a := ⟨_, rfl⟩
  have hbreak : Text.isWordChar '-' = false := by decide +kernel
  refine ⟨a, _, ha, rfl, ?_, hbreak, ?_⟩
  · cases ha
    decide +kernel
  · exact ingest_split ha rfl hbreak ['a'] ['B'] 5 none none none

end Aggregator

end WindowTally
