import WindowTally.Proofs.Closing
import WindowTally.Proofs.SettingsRules
import WindowTally.Proofs.Totals

/-!
# Operations of an aggregator

A run of an aggregator is a list of operations: a record is taken in, a flush comes,
or everything is drained. Each of them counts (`countedTally`), then closes windows
(`closed`), then emits the counts of exactly these windows. `operate_fst`,
`entries_operate`, `frame_operate` and `stats_operate` say so once for all three; what
runs keep is proved from there. All this takes room for the windows of a record for
granted; `Aggregator.run?` does not, and comes to the same where there is room
(`Aggregator.run?_eq`).
-/
namespace WindowTally

/-- An operation on an aggregator. -/
inductive Operation where
  | record (r : Record)
  | flush (now : Millis)
  | drain
  deriving DecidableEq, Repr

/-- Whether a record is taken in. -/
def Operation.takesIn : Operation → Bool
  | .record _ => true
  | _ => false

/-- Whether a record is taken in that is no text. -/
def Operation.isMalformed : Operation → Bool
  | .record r => (Text.wordsOfBytes r.payload).isNone
  | _ => false

namespace Aggregator

/-- Carry out one operation: what it emits, and the aggregator after it. -/
def operate (a : Aggregator) : Operation → List WordCount × Aggregator
  | .record r => a.ingest r
  | .flush now => a.flush now
  | .drain => a.drain

/-- The aggregator after several operations. -/
def after (a : Aggregator) (ops : List Operation) : Aggregator :=
  ops.foldl (fun a op => (a.operate op).2) a

/-- What each of several operations emits. -/
def outputs (a : Aggregator) : List Operation → List (List WordCount)
  | [] => []
  | op :: ops => (a.operate op).1 :: (a.operate op).2.outputs ops

theorem after_append (a : Aggregator) (ops ops' : List Operation) :
    a.after (ops ++ ops') = (a.after ops).after ops' :=
  List.foldl_append

@[simp]
theorem outputs_cons (a : Aggregator) (op : Operation) (ops : List Operation) :
    a.outputs (op :: ops) = (a.operate op).1 :: (a.operate op).2.outputs ops := rfl

theorem outputs_append (a : Aggregator) (ops ops' : List Operation) :
    a.outputs (ops ++ ops') = a.outputs ops ++ (a.after ops).outputs ops' := by
  induction ops generalizing a with
  | nil => rfl
  | cons op ops ih => exact congrArg _ (ih _)

/-! ## Counting -/

theorem tally_countWords (a : Aggregator) (adm : Admission) (words : List String) :
    (a.countWords adm words).tally = a.tally.countWords adm.opened words := by
  unfold countWords
  split
  · next hdrop =>
    have hopened : adm.opened = [] := List.isEmpty_iff.1 hdrop
    rw [hopened]
    induction words generalizing a with
    | nil => rfl
    | cons word words ih => exact ih (a.dropWord adm.lateness)
  · induction words generalizing a with
    | nil => rfl
    | cons word words ih => exact ih (a.countWord adm word)

/-- Counting a payload counts its words in the open windows; there are none to count in a payload
that is no text, and no window to count in for a record that is dropped. -/
theorem tally_countPayload (a : Aggregator) (adm : Admission) (payload : List UInt8) :
    (a.countPayload adm payload).tally =
      a.tally.countWords adm.opened ((Text.wordsOfBytes payload).getD []) := by
  unfold countPayload
  split
  · next words hwords => rw [hwords, tally_countWords]; rfl
  · next hwords => rw [hwords]; rfl

/-- From `a` to `b` counting goes on, and nothing else. -/
structure Frame (a b : Aggregator) : Prop where
  frontier : b.frontier = a.frontier
  windows : b.windows = a.windows
  settings : b.settings = a.settings

theorem Frame.refl (a : Aggregator) : Frame a a := ⟨rfl, rfl, rfl⟩

theorem Frame.trans {a b c : Aggregator} (hab : Frame a b) (hbc : Frame b c) : Frame a c :=
  ⟨hbc.frontier.trans hab.frontier, hbc.windows.trans hab.windows,
    hbc.settings.trans hab.settings⟩

theorem frame_countWords (a : Aggregator) (adm : Admission) (words : List String) :
    Frame a (a.countWords adm words) := by
  have hdrop (a : Aggregator) : Frame a (a.dropWord adm.lateness) := ⟨rfl, rfl, rfl⟩
  have hcount (a : Aggregator) (word : String) : Frame a (a.countWord adm word) := ⟨rfl, rfl, rfl⟩
  unfold countWords
  split
  · induction words generalizing a with
    | nil => exact Frame.refl a
    | cons word words ih => exact (hdrop a).trans (ih (a.dropWord adm.lateness))
  · induction words generalizing a with
    | nil => exact Frame.refl a
    | cons word words ih => exact (hcount a word).trans (ih (a.countWord adm word))

theorem frame_countPayload (a : Aggregator) (adm : Admission) (payload : List UInt8) :
    Frame a (a.countPayload adm payload) := by
  unfold countPayload
  split
  · exact frame_countWords a adm _
  · exact ⟨rfl, rfl, rfl⟩

theorem succ_add_ofNat (m : UInt64) (n : Nat) :
    m + 1 + UInt64.ofNat n = m + UInt64.ofNat (n + 1) := by
  rw [Nat.add_comm n, UInt64.ofNat_add, ← UInt64.add_assoc]
  rfl

/-- The words of a record are all counted or, if no window of it is open, all dropped. -/
theorem stats_countWords (a : Aggregator) (adm : Admission) (words : List String) :
    (a.countWords adm words).stats = { a.stats with
      counted := a.stats.counted + UInt64.ofNat (if adm.isDropped then 0 else words.length)
      lateDropped :=
        a.stats.lateDropped + UInt64.ofNat (if adm.isDropped then words.length else 0) } := by
  unfold countWords
  split
  · induction words generalizing a with
    | nil => simp
    | cons word words ih =>
      rw [List.foldl_cons, ih (a.dropWord adm.lateness)]
      simp only [dropWord, succ_add_ofNat, List.length_cons]
  · induction words generalizing a with
    | nil => simp
    | cons word words ih =>
      rw [List.foldl_cons, ih (a.countWord adm word)]
      simp only [countWord, succ_add_ofNat, List.length_cons]

theorem stats_countPayload (a : Aggregator) (adm : Admission) (payload : List UInt8) :
    (a.countPayload adm payload).stats = { a.stats with
      malformed :=
        a.stats.malformed + UInt64.ofNat (if (Text.wordsOfBytes payload).isNone then 1 else 0)
      counted := a.stats.counted +
        UInt64.ofNat (if adm.isDropped then 0 else ((Text.wordsOfBytes payload).getD []).length)
      lateDropped := a.stats.lateDropped +
        UInt64.ofNat (if adm.isDropped then ((Text.wordsOfBytes payload).getD []).length else 0) } := by
  unfold countPayload
  split
  · next words hwords => simp [hwords, stats_countWords]
  · next hwords => simp [hwords]

/-- How late the words of a record are, each of them, if they are dropped or late. -/
def latenesses (adm : Admission) (words : List String) : List Millis :=
  if adm.isDropped || adm.isLateButOpen then List.replicate words.length adm.lateness else []

theorem latenesses_append (adm : Admission) (xs ys : List String) :
    latenesses adm (xs ++ ys) = latenesses adm xs ++ latenesses adm ys := by
  unfold latenesses
  split
  · rw [List.length_append, List.replicate_add]
  · rfl

theorem late_countWords (a : Aggregator) (adm : Admission) (words : List String) :
    (a.countWords adm words).late =
      { dropped := a.late.dropped + UInt64.ofNat (if adm.isDropped then words.length else 0)
        accepted := a.late.accepted + UInt64.ofNat (if adm.isLateButOpen then words.length else 0)
        largest := (latenesses adm words).foldl max a.late.largest } := by
  have hopen : adm.isDropped = true → adm.isLateButOpen = false := by
    intro hdrop
    rw [Admission.isLateButOpen, ← Admission.isDropped, hdrop]
    exact Bool.and_false _
  unfold countWords latenesses
  cases hdrop : adm.isDropped with
  | true =>
    simp only [hopen hdrop, Bool.true_or, if_true, Bool.false_eq_true, if_false]
    induction words generalizing a with
    | nil => simp
    | cons word words ih =>
      rw [List.foldl_cons, ih (a.dropWord adm.lateness)]
      simp only [dropWord, LateTokens.drop, succ_add_ofNat, List.length_cons, List.replicate_succ,
        List.foldl_cons]
  | false =>
    cases hlate : adm.isLateButOpen with
    | true =>
      simp only [Bool.or_true, if_true, Bool.false_eq_true, if_false]
      induction words generalizing a with
      | nil => simp
      | cons word words ih =>
        rw [List.foldl_cons, ih (a.countWord adm word)]
        simp only [countWord, hlate, if_true, LateTokens.accept, succ_add_ofNat, List.length_cons,
          List.replicate_succ, List.foldl_cons]
    | false =>
      simp only [Bool.or_false, Bool.false_eq_true, if_false]
      induction words generalizing a with
      | nil => simp
      | cons word words ih =>
        rw [List.foldl_cons, ih (a.countWord adm word)]
        simp only [countWord, hlate, Bool.false_eq_true, if_false]

theorem late_countPayload (a : Aggregator) (adm : Admission) (payload : List UInt8) :
    (a.countPayload adm payload).late =
      { dropped := a.late.dropped + UInt64.ofNat
          (if adm.isDropped then ((Text.wordsOfBytes payload).getD []).length else 0)
        accepted := a.late.accepted + UInt64.ofNat
          (if adm.isLateButOpen then ((Text.wordsOfBytes payload).getD []).length else 0)
        largest :=
          (latenesses adm ((Text.wordsOfBytes payload).getD [])).foldl max a.late.largest } := by
  unfold countPayload
  split
  · next words hwords => simp [hwords, late_countWords]
  · next hwords => simp [hwords, latenesses]

/-! ## Emitting -/

theorem emitWindow_fst (a : Aggregator) (w : Window) :
    (a.emitWindow w).1 = a.tally.entries.filter fun c => c.window = w := by
  unfold emitWindow Tally.takeOut
  split
  · next h => exact (congrArg Prod.fst h).symm
  · next h => exact (congrArg Prod.fst h).symm

theorem entries_emitWindow (a : Aggregator) (w : Window) :
    (a.emitWindow w).2.tally.entries =
      a.tally.entries.filter fun c => !decide (c.window = w) := by
  unfold emitWindow Tally.takeOut
  split
  · next h =>
    have hnone := congrArg Prod.fst h
    rw [List.filter_eq_nil_iff] at hnone
    exact (List.filter_eq_self.2 fun c hc => by simpa using hnone c hc).symm
  · next h =>
    have htally := congrArg Prod.snd h
    simp only at htally
    rw [← htally]

theorem frame_emitWindow (a : Aggregator) (w : Window) : Frame a (a.emitWindow w).2 := by
  unfold emitWindow
  split
  · exact Frame.refl a
  · exact ⟨rfl, rfl, rfl⟩

theorem frame_emitWindows (a : Aggregator) (ws : List Window) : Frame a (a.emitWindows ws).2 := by
  induction ws generalizing a with
  | nil => exact Frame.refl a
  | cons w ws ih => exact (frame_emitWindow a w).trans (ih (a.emitWindow w).2)

theorem late_emitWindows (a : Aggregator) (ws : List Window) :
    (a.emitWindows ws).2.late = a.late := by
  induction ws generalizing a with
  | nil => rfl
  | cons w ws ih =>
    have hfirst : (a.emitWindow w).2.late = a.late := by
      unfold emitWindow
      split <;> rfl
    exact (ih (a.emitWindow w).2).trans hfirst

theorem store_emitWindows (a : Aggregator) (ws : List Window) :
    (a.emitWindows ws).2.tally.store = a.tally.store := by
  induction ws generalizing a with
  | nil => rfl
  | cons w ws ih =>
    have hfirst : (a.emitWindow w).2.tally.store = a.tally.store := by
      unfold emitWindow Tally.takeOut
      split
      · rfl
      · next htaken => exact (congrArg (fun taken => taken.2.store) htaken).symm
    exact (ih (a.emitWindow w).2).trans hfirst

/-- What is emitted was in the tally. -/
theorem mem_emitWindows {a : Aggregator} {ws : List Window} {c : WordCount}
    (hc : c ∈ (a.emitWindows ws).1) : c ∈ a.tally.entries := by
  induction ws generalizing a with
  | nil => cases hc
  | cons w ws ih =>
    have hor : c ∈ (a.emitWindow w).1 ∨ c ∈ ((a.emitWindow w).2.emitWindows ws).1 :=
      List.mem_append.1 hc
    rcases hor with hfirst | hlater
    · rw [emitWindow_fst] at hfirst
      exact (List.mem_filter.1 hfirst).1
    · have hleft := ih hlater
      rw [entries_emitWindow] at hleft
      exact (List.mem_filter.1 hleft).1

theorem stats_emitWindow (a : Aggregator) (w : Window) :
    (a.emitWindow w).2.stats = { a.stats with
      windows := a.stats.windows + UInt64.ofNat (WordCount.windowCount (a.emitWindow w).1)
      emitted := a.stats.emitted + UInt64.ofNat (a.emitWindow w).1.length } := by
  unfold emitWindow
  split
  · simp
  · next counts tally hne hcounts =>
    have hwindow : ∀ c ∈ counts, c.window = w := by
      intro c hc
      have hfst : (a.tally.entries.filter fun c => c.window = w) = counts := congrArg Prod.fst hcounts
      rw [← hfst] at hc
      simpa using (List.mem_filter.1 hc).2
    have hone : WordCount.windowCount counts = 1 := WordCount.windowCount_of_window hne hwindow
    rw [hone]
    rfl

/-- The totals of emission: how many windows are emitted, and how many word counts. -/
theorem stats_emitWindows (a : Aggregator) (ws : List Window) :
    (a.emitWindows ws).2.stats = { a.stats with
      windows := a.stats.windows + UInt64.ofNat (WordCount.windowCount (a.emitWindows ws).1)
      emitted := a.stats.emitted + UInt64.ofNat (a.emitWindows ws).1.length } := by
  induction ws generalizing a with
  | nil => simp [emitWindows]
  | cons w ws ih =>
    -- what is emitted after a window is no count of it
    have hapart : ∀ c ∈ (a.emitWindow w).1, ∀ d ∈ ((a.emitWindow w).2.emitWindows ws).1,
        c.window ≠ d.window := by
      intro c hc d hd
      have hleft := mem_emitWindows hd
      rw [emitWindow_fst, List.mem_filter, decide_eq_true_eq] at hc
      rw [entries_emitWindow, List.mem_filter] at hleft
      intro heq
      simp [← heq, hc.2] at hleft
    simp only [emitWindows]
    rw [ih, stats_emitWindow, WordCount.windowCount_append hapart, List.length_append]
    simp only [UInt64.ofNat_add, UInt64.add_assoc]

/-- Different windows are emitted independently of each other. -/
theorem emitWindows_fst {ws : List Window} (h : ws.Nodup) (a : Aggregator) :
    (a.emitWindows ws).1 = ws.flatMap fun w => a.tally.entries.filter fun c => c.window = w := by
  induction ws generalizing a with
  | nil => rfl
  | cons w ws ih =>
    obtain ⟨hw, hws⟩ := List.nodup_cons.1 h
    simp only [emitWindows, List.flatMap_cons]
    rw [emitWindow_fst, ih hws]
    congr 1
    apply List.flatMap_congr
    intro v hv
    rw [entries_emitWindow, List.filter_filter]
    apply List.filter_congr
    intro c _
    by_cases hc : c.window = v
    · have hne : v ≠ w := fun e => hw (e ▸ hv)
      simp [hc, hne]
    · simp [hc]

theorem entries_emitWindows (a : Aggregator) (ws : List Window) :
    (a.emitWindows ws).2.tally.entries =
      a.tally.entries.filter fun c => !decide (c.window ∈ ws) := by
  induction ws generalizing a with
  | nil => exact (List.filter_true _).symm
  | cons w ws ih =>
    simp only [emitWindows]
    rw [ih, entries_emitWindow, List.filter_filter]
    apply List.filter_congr
    intro c _
    simp [Bool.and_comm]

/-! ## Operations -/

/-- Which windows of a record are open, and how late it is. -/
def admission (a : Aggregator) (r : Record) : Admission :=
  (a.frontier.enroll r.timestamp (a.windows.windowsAt r.timestamp)).1

/-- The frontier once the windows of the record, if there is one, are enrolled. -/
def enrolled (a : Aggregator) : Operation → Frontier
  | .record r => (a.frontier.enroll r.timestamp (a.windows.windowsAt r.timestamp)).2
  | _ => a.frontier

/-- The tally once the words of the record, if there is one, are counted. -/
def countedTally (a : Aggregator) : Operation → Tally
  | .record r =>
    a.tally.countWords (a.frontier.enroll r.timestamp (a.windows.windowsAt r.timestamp)).1.opened
      ((Text.wordsOfBytes r.payload).getD [])
  | _ => a.tally

/-- The windows that the operation closes, and the frontier after it. -/
def closed (a : Aggregator) (op : Operation) : List Window × Frontier :=
  match op with
  | .record r => (a.enrolled op).onEvent r.timestamp
  | .flush now => (a.enrolled op).onFlush now
  | .drain => (a.enrolled op).closeAll

/-- How many words an operation counts: those of a record some window of which is open. -/
def countedWords (a : Aggregator) : Operation → Nat
  | .record r =>
    if (a.admission r).isDropped then 0 else ((Text.wordsOfBytes r.payload).getD []).length
  | _ => 0

/-- How many words an operation drops: those of a record none of whose windows is open. -/
def droppedWords (a : Aggregator) : Operation → Nat
  | .record r =>
    if (a.frontier.enroll r.timestamp (a.windows.windowsAt r.timestamp)).1.opened.isEmpty then
      ((Text.wordsOfBytes r.payload).getD []).length
    else 0
  | _ => 0

/-- The statistics once the record, if there is one, is counted. -/
def countedStats (a : Aggregator) (op : Operation) : Stats :=
  { a.stats with
    records := a.stats.records + UInt64.ofNat ([op].countP Operation.takesIn)
    malformed := a.stats.malformed + UInt64.ofNat ([op].countP Operation.isMalformed)
    counted := a.stats.counted + UInt64.ofNat (a.countedWords op)
    lateDropped := a.stats.lateDropped + UInt64.ofNat (a.droppedWords op)
    watermark :=
      if op.takesIn then max a.stats.watermark (a.closed op).2.watermark.timestamp
      else a.stats.watermark }

/-- The account of late words once the record, if there is one, is counted. -/
def countedLate (a : Aggregator) : Operation → LateTokens
  | .record r =>
    let words := (Text.wordsOfBytes r.payload).getD []
    let adm := a.admission r
    { dropped := a.late.dropped + UInt64.ofNat (if adm.isDropped then words.length else 0)
      accepted := a.late.accepted + UInt64.ofNat (if adm.isLateButOpen then words.length else 0)
      largest := (latenesses adm words).foldl max a.late.largest }
  | _ => a.late

/-- The aggregator once a record is enrolled. -/
def enlist (a : Aggregator) (r : Record) : Aggregator :=
  { a with
    frontier := a.enrolled (.record r)
    stats := { a.stats with records := a.stats.records + 1 } }

/-- Counting a record leaves alone what its event closes. -/
theorem ingest_eq (a : Aggregator) (r : Record) :
    a.ingest r = Aggregator.retire { (a.enlist r).countPayload (a.admission r) r.payload with
      frontier := (a.closed (.record r)).2
      stats := { ((a.enlist r).countPayload (a.admission r) r.payload).stats with
        watermark := max ((a.enlist r).countPayload (a.admission r) r.payload).stats.watermark
          (a.closed (.record r)).2.watermark.timestamp } } (a.closed (.record r)).1 := by
  have hfrontier := (frame_countPayload (a.enlist r) (a.admission r) r.payload).frontier
  have hclosed : a.closed (.record r) =
      ((a.enlist r).countPayload (a.admission r) r.payload).frontier.onEvent r.timestamp := by
    rw [hfrontier]
    rfl
  rw [hclosed]
  rfl

/-- An operation emits and takes out the windows it closes, once its record is counted. -/
theorem operate_cases (a : Aggregator) (op : Operation) :
    ∃ b : Aggregator, a.operate op = b.retire (a.closed op).1 ∧ b.tally = a.countedTally op ∧
      Frame { a with frontier := (a.closed op).2 } b ∧ b.stats = a.countedStats op ∧
      b.late = a.countedLate op := by
  -- without a record nothing is added to the totals of counting
  have hnone : a.stats = { a.stats with
      records := a.stats.records + UInt64.ofNat 0
      malformed := a.stats.malformed + UInt64.ofNat 0
      counted := a.stats.counted + UInt64.ofNat 0
      lateDropped := a.stats.lateDropped + UInt64.ofNat 0 } := by simp
  cases op with
  | record r =>
    refine ⟨_, a.ingest_eq r, tally_countPayload _ _ _, ?_, ?_, late_countPayload _ _ _⟩
    · have hframe := frame_countPayload (a.enlist r) (a.admission r) r.payload
      exact ⟨rfl, hframe.windows, hframe.settings⟩
    · have hmalformed : [Operation.record r].countP Operation.isMalformed =
          if (Text.wordsOfBytes r.payload).isNone then 1 else 0 := by
        simp [List.countP_cons, Operation.isMalformed]
      rw [countedStats, hmalformed, stats_countPayload]
      rfl
  | flush now => exact ⟨_, rfl, rfl, Frame.refl _, hnone, rfl⟩
  | drain => exact ⟨_, rfl, rfl, Frame.refl _, hnone, rfl⟩

theorem operate_fst (a : Aggregator) {op : Operation} (h : (a.closed op).1.Nodup) :
    (a.operate op).1 = (a.closed op).1.flatMap fun w =>
      (a.countedTally op).entries.filter fun c => c.window = w := by
  obtain ⟨b, hb, htally, -⟩ := a.operate_cases op
  rw [hb, ← htally]
  exact emitWindows_fst h b

theorem entries_operate (a : Aggregator) (op : Operation) :
    (a.operate op).2.tally.entries =
      (a.countedTally op).entries.filter fun c => !decide (c.window ∈ (a.closed op).1) := by
  obtain ⟨b, hb, htally, -⟩ := a.operate_cases op
  rw [hb, ← htally]
  exact entries_emitWindows b _

/-- Apart from its frontier, an operation changes counts only. -/
theorem frame_operate (a : Aggregator) (op : Operation) :
    Frame { a with frontier := (a.closed op).2 } (a.operate op).2 := by
  obtain ⟨b, hb, -, hframe, -⟩ := a.operate_cases op
  rw [hb]
  have hemits := hframe.trans (frame_emitWindows b (a.closed op).1)
  exact ⟨hemits.frontier, hemits.windows, hemits.settings⟩

/-- To the statistics of counting an operation adds what it emits and notes what stays open. -/
theorem stats_operate (a : Aggregator) (op : Operation) :
    (a.operate op).2.stats = { a.countedStats op with
      windows := a.stats.windows + UInt64.ofNat (WordCount.windowCount (a.operate op).1)
      emitted := a.stats.emitted + UInt64.ofNat (a.operate op).1.length
      openWindows := UInt64.ofNat (a.operate op).2.tally.openWindows.length } := by
  obtain ⟨b, hb, -, -, hstats, -⟩ := a.operate_cases op
  rw [hb]
  simp only [retire, stats_emitWindows, hstats]
  rfl

theorem late_operate (a : Aggregator) (op : Operation) :
    (a.operate op).2.late = a.countedLate op := by
  obtain ⟨b, hb, -, -, -, hlate⟩ := a.operate_cases op
  rw [hb, ← hlate]
  exact late_emitWindows b _

/-- The tally keeps the name of its store. -/
theorem store_operate (a : Aggregator) (op : Operation) :
    (a.operate op).2.tally.store = a.tally.store := by
  have hcounted : (a.countedTally op).store = a.tally.store := by
    cases op with
    | record r => exact Tally.store_countWords _ _ _
    | flush now => rfl
    | drain => rfl
  obtain ⟨b, hb, htally, -⟩ := a.operate_cases op
  rw [hb, ← hcounted, ← htally]
  exact store_emitWindows b _

theorem frontier_operate (a : Aggregator) (op : Operation) :
    (a.operate op).2.frontier = (a.closed op).2 :=
  (frame_operate a op).frontier

theorem lateDropped_operate (a : Aggregator) (op : Operation) :
    (a.operate op).2.stats.lateDropped =
      a.stats.lateDropped + UInt64.ofNat (a.droppedWords op) := by
  rw [stats_operate]
  rfl

theorem records_operate (a : Aggregator) (op : Operation) : (a.operate op).2.stats.records =
    a.stats.records + UInt64.ofNat ([op].countP Operation.takesIn) := by
  rw [stats_operate]
  rfl

/-- Every record that is taken in is counted, whether or not its words are. -/
theorem records_after (a : Aggregator) (ops : List Operation) : (a.after ops).stats.records =
    a.stats.records + UInt64.ofNat (ops.countP Operation.takesIn) := by
  induction ops generalizing a with
  | nil => exact (UInt64.add_zero _).symm
  | cons op ops ih =>
    refine (ih (a.operate op).2).trans ?_
    rw [records_operate, UInt64.add_assoc, ← UInt64.ofNat_add, ← List.countP_append,
      List.singleton_append]

theorem settings_operate (a : Aggregator) (op : Operation) :
    (a.operate op).2.settings = a.settings :=
  (frame_operate a op).settings

theorem windows_operate (a : Aggregator) (op : Operation) :
    (a.operate op).2.windows = a.windows :=
  (frame_operate a op).windows

/-! ## Room for the windows -/

/-- Carry out one operation, unless no room can be made for the windows of a record. -/
def operate? (a : Aggregator) : Operation → Option (List WordCount × Aggregator)
  | .record r => a.ingest? r
  | op => some (a.operate op)

/-- What each of several operations emits, and the aggregator after them, unless one of them cannot
be carried out. -/
def run? (a : Aggregator) : List Operation → Option (List (List WordCount) × Aggregator)
  | [] => some ([], a)
  | op :: ops =>
    (a.operate? op).bind fun (emitted, b) =>
      (b.run? ops).map fun (outs, c) => (emitted :: outs, c)

theorem operate?_eq (a : Aggregator) (op : Operation) :
    a.operate? op = if op.takesIn → a.windows.hasRoom then some (a.operate op) else none := by
  cases op with
  | record r =>
    simp only [operate?, ingest?, Hopping.assign?, Operation.takesIn, true_imp_iff]
    split <;> rfl
  | flush now => rfl
  | drain => rfl

/-- Where there is room a run is what its operations come to. Where there is none it is so as well if
nothing is taken in. -/
theorem run?_eq (a : Aggregator) (ops : List Operation) :
    a.run? ops = if ∀ op ∈ ops, op.takesIn → a.windows.hasRoom then
      some (a.outputs ops, a.after ops) else none := by
  induction ops generalizing a with
  | nil => simp [run?, outputs, after]
  | cons op ops ih =>
    have htail := ih (a.operate op).2
    rw [windows_operate] at htail
    by_cases hop : op.takesIn → a.windows.hasRoom
    · simp only [run?, operate?_eq, if_pos hop, Option.bind_some, htail]
      by_cases hops : ∀ op' ∈ ops, op'.takesIn → a.windows.hasRoom
      · rw [if_pos hops, if_pos (List.forall_mem_cons.2 ⟨hop, hops⟩)]
        rfl
      · rw [if_neg hops, if_neg fun hall => hops (List.forall_mem_cons.1 hall).2]
        rfl
    · rw [run?, operate?_eq, if_neg hop, if_neg fun hall => hop (hall op List.mem_cons_self)]
      rfl

theorem run?_eq_some {a b : Aggregator} {ops : List Operation} {outs : List (List WordCount)}
    (h : a.run? ops = some (outs, b)) : outs = a.outputs ops ∧ b = a.after ops := by
  rw [run?_eq] at h
  split at h
  · cases h
    exact ⟨rfl, rfl⟩
  · cases h

/-- A run over records comes to nothing just when there is one and no room for its windows. -/
theorem run?_records_eq_none_iff (a : Aggregator) (rs : List Record) {ops : List Operation}
    (hops : ∀ op ∈ ops, op.takesIn = false) : a.run? (rs.map .record ++ ops) = none ↔
      rs ≠ [] ∧ 2 ^ 63 - 1 < 16 * a.windows.maxWindows := by
  have hroom : (∀ op ∈ rs.map .record ++ ops, op.takesIn → a.windows.hasRoom) ↔
      rs = [] ∨ a.windows.hasRoom := by
    constructor
    · intro hall
      cases rs with
      | nil => exact .inl rfl
      | cons r rs => exact .inr (hall (.record r) List.mem_cons_self rfl)
    · rintro (rfl | hroom) op hop htakes
      · rw [hops op hop] at htakes
        cases htakes
      · exact hroom
  rw [run?_eq, ← Nat.not_le, ← Hopping.hasRoom_iff, ← not_or, ← hroom]
  split <;> simp_all

theorem run?_drain_eq_none_iff (a : Aggregator) (rs : List Record) :
    a.run? (rs.map .record ++ [.drain]) = none ↔
      rs ≠ [] ∧ 2 ^ 63 - 1 < 16 * a.windows.maxWindows :=
  run?_records_eq_none_iff a rs (by simp [Operation.takesIn])

end Aggregator

end WindowTally
