import Mathlib.Algebra.Order.BigOperators.Group.List
import Mathlib.Algebra.Order.Group.Nat
import WindowTally.Proofs.ExactCounts

/-!
# The statistics account for every word

What the statistics of an aggregator say is told from the history alone: from the
operations that were carried out and what they emitted. Each record that was taken in
is an `Arrival` together with the operations before it, which settle what becomes of
its words. They are all counted, in those of its windows that nothing before has
closed, or all dropped if there is no such window; and they are late if an earlier
record had a later time.

Totals are 64-bit and wrap, so `stats_after` and `late_after` hold of every run, up to
multiples of `2 ^ 64`. In a run in which none of them has come that far
(`NoneWraps`) they say what happened, and what was emitted and what is left in the
tally add up to the occurrences that were counted (`accounted_after`).
-/
namespace WindowTally

open WordCount (amount total windowCount)

/-! ## What happened -/

namespace Operation

/-- The time of the record that is taken in. -/
def time? : Operation → Option Millis
  | .record r => some r.timestamp
  | _ => none

/-- The largest time of a record that is taken in; the least time if there is none. -/
def latest (ops : List Operation) : Millis := (ops.filterMap time?).foldl max Millis.least

theorem latest_concat (ops : List Operation) (op : Operation) :
    latest (ops ++ [op]) = ([op].filterMap time?).foldl max (latest ops) := by
  unfold latest
  rw [List.filterMap_append, List.foldl_append]

end Operation

/-- A record that is taken in after some operations. -/
structure Arrival where
  before : List Operation
  record : Record

namespace Arrival

/-- The words of the record, if it is text. -/
def words (x : Arrival) : List String := (Text.wordsOfBytes x.record.payload).getD []

/-- The record is no text. -/
def isMalformed (x : Arrival) : Bool := !(Utf8.decode x.record.payload).isOk

/-- How far the record lies behind the records before it, up to the largest duration. -/
def lateness (x : Arrival) : Int :=
  min (max 0 ((Operation.latest x.before).toInt - x.record.timestamp.toInt)) (2 ^ 63 - 1)

/-- A record before it has a later time. -/
def isBehind (x : Arrival) : Bool := decide (x.record.timestamp < Operation.latest x.before)

section
variable (grace allowance : Millis) (h : Hopping) (x : Arrival)

/-- The windows of the record that no operation before it has closed. -/
def openWindows : List Window :=
  (h.windowsAt x.record.timestamp).filter fun w =>
    !decide (∃ op ∈ x.before, op.Closes grace allowance w)

/-- The words are dropped. -/
def isDropped : Bool := (x.openWindows grace allowance h).isEmpty

/-- How many words are counted. -/
def counted : Nat := if x.isDropped grace allowance h then 0 else x.words.length

/-- How many words are dropped. -/
def dropped : Nat := if x.isDropped grace allowance h then x.words.length else 0

/-- How many words are counted late. -/
def acceptedLate : Nat := if x.isBehind then x.counted grace allowance h else 0

/-- How late the words are, each of them, that are dropped or counted late. -/
def latenesses : List Int :=
  List.replicate (x.dropped grace allowance h + x.acceptedLate grace allowance h) x.lateness

/-- How often words are counted: each in every open window. -/
def occurrences : Nat :=
  x.counted grace allowance h * (x.openWindows grace allowance h).length

theorem counted_add_dropped :
    x.counted grace allowance h + x.dropped grace allowance h = x.words.length := by
  unfold counted dropped
  split
  · exact Nat.zero_add _
  · rfl

theorem acceptedLate_le_counted : x.acceptedLate grace allowance h ≤ x.counted grace allowance h := by
  unfold acceptedLate
  split
  · exact Nat.le_refl _
  · exact Nat.zero_le _

end

end Arrival

namespace Operation

/-- The records that are taken in after `before`. -/
def arrivalsAfter (before : List Operation) : List Operation → List Arrival
  | [] => []
  | .record r :: ops => ⟨before, r⟩ :: arrivalsAfter (before ++ [.record r]) ops
  | op :: ops => arrivalsAfter (before ++ [op]) ops

/-- The records that are taken in. -/
def arrivals (ops : List Operation) : List Arrival := arrivalsAfter [] ops

theorem arrivalsAfter_append (before ops ops' : List Operation) :
    arrivalsAfter before (ops ++ ops') =
      arrivalsAfter before ops ++ arrivalsAfter (before ++ ops) ops' := by
  induction ops generalizing before with
  | nil => simp [arrivalsAfter]
  | cons op ops ih =>
    have hrest := ih (before ++ [op])
    rw [List.append_assoc, List.singleton_append] at hrest
    cases op <;> simp only [List.cons_append, arrivalsAfter, hrest]

theorem arrivals_concat (ops : List Operation) (op : Operation) :
    arrivals (ops ++ [op]) = arrivals ops ++ arrivalsAfter ops [op] :=
  arrivalsAfter_append [] ops [op]

theorem malformed_concat (ops : List Operation) (op : Operation) :
    [op].countP isMalformed = (arrivalsAfter ops [op]).countP Arrival.isMalformed := by
  cases op with
  | record r =>
    have hnone : (Text.wordsOfBytes r.payload).isNone = !(Utf8.decode r.payload).isOk := by
      unfold Text.wordsOfBytes
      cases Utf8.decode r.payload <;> rfl
    have hone : arrivalsAfter ops [record r] = [⟨ops, r⟩] := rfl
    rw [hone, List.countP_singleton, List.countP_singleton, isMalformed, hnone,
      Arrival.isMalformed]
  | flush now => rfl
  | drain => rfl

/-- How often an operation counts a word at most: each word of its record in each of the record's
windows. -/
def placements (h : Hopping) : Operation → Nat
  | .record r => ((Text.wordsOfBytes r.payload).getD []).length * (h.windowsAt r.timestamp).length
  | _ => 0

end Operation

/-! ## What the frontier knows of it -/

/-- The watermark moves to the times that lie after it. -/
theorem Watermark.timestamp_advance (w : Watermark) (t : Millis) :
    (w.advance t).timestamp = max w.timestamp t := by
  rw [← Int64.toInt_inj, Millis.toInt_max, advance, advance?]
  split
  · next h =>
    rw [Int64.lt_iff_toInt_lt] at h
    exact (max_eq_right (Int.le_of_lt h)).symm
  · next h =>
    rw [Int64.lt_iff_toInt_lt] at h
    exact (max_eq_left (Int.not_lt.1 h)).symm

/-- The lateness of a time is its distance behind the watermark, up to the largest duration. -/
theorem Watermark.toInt_lateness (w : Watermark) (t : Millis) :
    (w.lateness t).toInt = min (max 0 (w.timestamp.toInt - t.toInt)) (2 ^ 63 - 1) := by
  have hlo := Int64.le_toInt t
  unfold lateness
  split
  · next h =>
    have hbehind : w.timestamp.toInt ≤ t.toInt := by
      rcases Bool.or_eq_true_iff.1 h with hleast | hle
      · rw [eq_of_beq hleast, Millis.toInt_least]
        omega
      · exact Int64.le_iff_toInt_le.1 (of_decide_eq_true hle)
    rw [Int64.toInt_zero]
    omega
  · next h =>
    have hahead : t.toInt < w.timestamp.toInt := by
      simp only [Bool.or_eq_true, decide_eq_true_eq, not_or, Int64.le_iff_toInt_le] at h
      omega
    rw [Millis.toInt_subClamped]
    omega

theorem Watermark.lateness_pos_iff {w : Watermark} {t : Millis} :
    0 < w.lateness t ↔ t < w.timestamp := by
  rw [Int64.lt_iff_toInt_lt, Int64.lt_iff_toInt_lt, toInt_lateness, Int64.toInt_zero]
  omega

theorem Millis.toInt_foldl_max (ms : List Millis) (m : Millis) :
    (ms.foldl max m).toInt = (ms.map Int64.toInt).foldl max m.toInt := by
  induction ms generalizing m with
  | nil => rfl
  | cons n ms ih => rw [List.foldl_cons, ih, toInt_max, List.map_cons, List.foldl_cons]

namespace Aggregator

theorem windows_after (a : Aggregator) (ops : List Operation) :
    (a.after ops).windows = a.windows := by
  induction ops generalizing a with
  | nil => rfl
  | cons op ops ih => exact (ih _).trans (windows_operate a op)

theorem after_concat (a : Aggregator) (ops : List Operation) (op : Operation) :
    a.after (ops ++ [op]) = ((a.after ops).operate op).2 := after_append a ops [op]

theorem outputs_concat (a : Aggregator) (ops : List Operation) (op : Operation) :
    (a.outputs (ops ++ [op])).flatten =
      (a.outputs ops).flatten ++ ((a.after ops).operate op).1 := by
  rw [outputs_append, List.flatten_append]
  exact congrArg _ (List.append_nil _)

/-- No window is emitted again. -/
theorem windows_apart {a : Aggregator} (h : a.Coupled) (ops : List Operation) (op : Operation) :
    ∀ c ∈ (a.outputs ops).flatten, ∀ d ∈ ((a.after ops).operate op).1, c.window ≠ d.window := by
  intro c hc d hd heq
  have hordered := pairwise_outputs h (ops ++ [op])
  rw [outputs_append, List.pairwise_append] at hordered
  obtain ⟨out, hout, hc⟩ := List.mem_flatten.1 hc
  have hlt := hordered.2.2 out hout _ List.mem_cons_self c hc d hd
  exact Int64.lt_irrefl (heq ▸ hlt)

theorem watermark_operate (a : Aggregator) (op : Operation) :
    (a.operate op).2.frontier.watermark.timestamp =
      ([op].filterMap Operation.time?).foldl max a.frontier.watermark.timestamp := by
  rw [frontier_operate]
  cases op with
  | record r =>
    rw [closed, Frontier.watermark_onEvent, Watermark.timestamp_advance, enrolled,
      Frontier.watermark_enroll]
    rfl
  | flush now => exact congrArg Watermark.timestamp (Frontier.watermark_closeThrough _)
  | drain => exact congrArg Watermark.timestamp (Frontier.watermark_closeThrough _)

theorem isClosed_after {a : Aggregator} (h : a.Coupled) {w : Window} (hw : w.start < w.stop)
    (ops : List Operation) : (a.after ops).frontier.isClosed w = true ↔
      a.frontier.isClosed w = true ∨
        ∃ op ∈ ops, op.Closes a.frontier.grace a.frontier.allowance w := by
  induction ops generalizing a with
  | nil => simp [after]
  | cons op ops ih =>
    have hrest := ih (coupled_operate h op)
    rw [grace_operate h, allowance_operate h, closes_iff h op hw] at hrest
    refine hrest.trans ?_
    simp only [List.mem_cons, exists_eq_or_imp, or_assoc]

section
variable {s : ProcessingSettings} {a : Aggregator} (ha : ofSettings s = .ok a)
  (ops : List Operation)
include ha

theorem watermark_after : (a.after ops).frontier.watermark.timestamp = Operation.latest ops := by
  induction ops using List.reverseRecOn with
  | nil =>
    obtain ⟨windows, -, -, rfl⟩ := ofSettings_eq_ok ha
    rfl
  | append_singleton ops op ih =>
    rw [after_concat, watermark_operate, ih, Operation.latest_concat]

/-- A window is closed once an operation has closed it. -/
theorem isClosed_after_ofSettings {w : Window} (hw : w.start < w.stop) :
    (a.after ops).frontier.isClosed w = decide (∃ op ∈ ops, op.Closes s.grace s.allowance w) := by
  obtain ⟨hgrace, hallowance, hthrough, -⟩ := frontier_ofSettings ha
  have hopen : ¬ a.frontier.isClosed w = true := by
    rw [Frontier.isClosed_iff, hthrough]
    exact Int64.not_le.2 (Window.least_lt_stop hw)
  rw [Bool.eq_iff_iff, isClosed_after (coupled_ofSettings ha) hw, hgrace, hallowance,
    decide_eq_true_eq, or_iff_right hopen]

/-- The record after some operations is admitted to the windows that none of them has closed, with
its distance behind the latest of them. -/
theorem admission_after (r : Record) : (a.after ops).admission r =
    ⟨(⟨ops, r⟩ : Arrival).openWindows s.grace s.allowance a.windows,
      Watermark.lateness ⟨Operation.latest ops⟩ r.timestamp⟩ := by
  have hopened : ((a.after ops).admission r).opened =
      (⟨ops, r⟩ : Arrival).openWindows s.grace s.allowance a.windows := by
    unfold admission Frontier.enroll Arrival.openWindows
    rw [windows_after]
    refine List.filter_congr fun w hw => ?_
    rw [isClosed_after_ofSettings ha ops (Hopping.start_lt_stop_of_mem hw)]
  have hlateness : ((a.after ops).admission r).lateness =
      Watermark.lateness ⟨Operation.latest ops⟩ r.timestamp := by
    rw [← watermark_after ha]
    rfl
  rw [← hopened, ← hlateness]

/-! ## One operation -/

section
variable (op : Operation)

theorem countedWords_after : (a.after ops).countedWords op =
    ((Operation.arrivalsAfter ops [op]).map (Arrival.counted s.grace s.allowance a.windows)).sum := by
  cases op with
  | record r =>
    rw [countedWords, admission_after ha]
    exact (Nat.add_zero _).symm
  | flush now => rfl
  | drain => rfl

theorem droppedWords_after : (a.after ops).droppedWords op =
    ((Operation.arrivalsAfter ops [op]).map (Arrival.dropped s.grace s.allowance a.windows)).sum := by
  cases op with
  | record r =>
    have hopened := congrArg Admission.opened (admission_after ha ops r)
    rw [droppedWords, ← admission, hopened]
    exact (Nat.add_zero _).symm
  | flush now => rfl
  | drain => rfl

theorem countedLate_after :
    ((a.after ops).countedLate op).dropped = (a.after ops).late.dropped +
      UInt64.ofNat ((Operation.arrivalsAfter ops [op]).map
        (Arrival.dropped s.grace s.allowance a.windows)).sum ∧
    ((a.after ops).countedLate op).accepted = (a.after ops).late.accepted +
      UInt64.ofNat ((Operation.arrivalsAfter ops [op]).map
        (Arrival.acceptedLate s.grace s.allowance a.windows)).sum ∧
    ((a.after ops).countedLate op).largest.toInt =
      ((Operation.arrivalsAfter ops [op]).flatMap
        (Arrival.latenesses s.grace s.allowance a.windows)).foldl max
          (a.after ops).late.largest.toInt := by
  cases op with
  | record r =>
    let x : Arrival := ⟨ops, r⟩
    have hadmission := admission_after ha ops r
    have hdropped : ((a.after ops).admission r).isDropped =
        x.isDropped s.grace s.allowance a.windows := by
      rw [hadmission]
      rfl
    have hlate : ((a.after ops).admission r).isLateButOpen =
        (x.isBehind && !x.isDropped s.grace s.allowance a.windows) := by
      have hbehind : decide (0 < Watermark.lateness ⟨Operation.latest ops⟩ r.timestamp) =
          x.isBehind := decide_eq_decide.2 Watermark.lateness_pos_iff
      rw [hadmission, ← hbehind]
      rfl
    have hlateness : ((a.after ops).admission r).lateness.toInt = x.lateness := by
      rw [hadmission]
      exact Watermark.toInt_lateness _ _
    have hone : Operation.arrivalsAfter ops [.record r] = [x] := rfl
    have haccepted : (if ((a.after ops).admission r).isLateButOpen then x.words.length else 0) =
        x.acceptedLate s.grace s.allowance a.windows := by
      rw [hlate, Arrival.acceptedLate, Arrival.counted]
      cases x.isBehind <;> cases x.isDropped s.grace s.allowance a.windows <;> rfl
    have hlatenesses : (latenesses ((a.after ops).admission r) x.words).map Int64.toInt =
        x.latenesses s.grace s.allowance a.windows := by
      rw [latenesses, hdropped, hlate, Arrival.latenesses, Arrival.acceptedLate, Arrival.dropped,
        Arrival.counted, ← hlateness]
      cases x.isDropped s.grace s.allowance a.windows <;> cases x.isBehind <;> simp
    rw [hone]
    simp only [List.map_singleton, List.sum_singleton, List.flatMap_singleton]
    refine ⟨?_, ?_, ?_⟩
    · rw [countedLate, Arrival.dropped, ← hdropped]
      rfl
    · rw [← haccepted]
      rfl
    · exact (Millis.toInt_foldl_max _ _).trans (congrArg (List.foldl max _) hlatenesses)
  | flush now => simp [Operation.arrivalsAfter, countedLate]
  | drain => simp [Operation.arrivalsAfter, countedLate]

/-- The watermark of the statistics follows that of the frontier. -/
theorem watermark_noted :
    (if op.takesIn then
      max (Operation.latest ops) ((a.after ops).closed op).2.watermark.timestamp
    else Operation.latest ops) = Operation.latest (ops ++ [op]) := by
  rw [← frontier_operate, watermark_operate, watermark_after ha, Operation.latest_concat]
  cases op with
  | record r =>
    have hidem : ∀ m t : Millis, max m (max m t) = max m t := by
      intro m t
      simp only [← Int64.toInt_inj, Millis.toInt_max]
      omega
    have htime : [Operation.record r].filterMap Operation.time? = [r.timestamp] := rfl
    have htakes : (Operation.record r).takesIn = true := rfl
    rw [htime, if_pos htakes, List.foldl_cons, List.foldl_nil, hidem]
  | flush now => rfl
  | drain => rfl

end

/-! ## Runs -/

/-- The statistics of a run, as 64-bit totals of what happened. -/
theorem stats_after : (a.after ops).stats =
    { records := UInt64.ofNat (Operation.arrivals ops).length
      malformed := UInt64.ofNat ((Operation.arrivals ops).countP Arrival.isMalformed)
      counted := UInt64.ofNat
        ((Operation.arrivals ops).map (Arrival.counted s.grace s.allowance a.windows)).sum
      lateDropped := UInt64.ofNat
        ((Operation.arrivals ops).map (Arrival.dropped s.grace s.allowance a.windows)).sum
      windows := UInt64.ofNat (windowCount (a.outputs ops).flatten)
      emitted := UInt64.ofNat (a.outputs ops).flatten.length
      watermark := Operation.latest ops
      openWindows := UInt64.ofNat (windowCount (a.after ops).tally.entries) } := by
  induction ops using List.reverseRecOn with
  | nil =>
    obtain ⟨windows, -, -, rfl⟩ := ofSettings_eq_ok ha
    rfl
  | append_singleton ops op ih =>
    have hrecords : [op].countP Operation.takesIn = (Operation.arrivalsAfter ops [op]).length := by
      cases op <;> rfl
    have hmalformed : [op].countP Operation.isMalformed =
        (Operation.arrivalsAfter ops [op]).countP Arrival.isMalformed := Operation.malformed_concat ops op
    rw [after_concat, stats_operate, countedStats, ih, countedWords_after ha, droppedWords_after ha,
      hrecords, hmalformed, watermark_noted ha, Tally.length_openWindows, outputs_concat,
      WordCount.windowCount_append (windows_apart (coupled_ofSettings ha) ops op), Operation.arrivals_concat]
    simp only [UInt64.ofNat_add, List.length_append, List.countP_append, List.map_append,
      List.sum_append]

/-- The account of late words of a run. -/
theorem late_after :
    (a.after ops).late.dropped = UInt64.ofNat
      ((Operation.arrivals ops).map (Arrival.dropped s.grace s.allowance a.windows)).sum ∧
    (a.after ops).late.accepted = UInt64.ofNat
      ((Operation.arrivals ops).map (Arrival.acceptedLate s.grace s.allowance a.windows)).sum ∧
    (a.after ops).late.largest.toInt = ((Operation.arrivals ops).flatMap
      (Arrival.latenesses s.grace s.allowance a.windows)).foldl max 0 := by
  induction ops using List.reverseRecOn with
  | nil =>
    obtain ⟨windows, -, -, rfl⟩ := ofSettings_eq_ok ha
    exact ⟨rfl, rfl, rfl⟩
  | append_singleton ops op ih =>
    obtain ⟨hdropped, haccepted, hlargest⟩ := ih
    have hstep := countedLate_after ha ops op
    rw [hdropped, haccepted, hlargest, ← late_operate, ← after_concat] at hstep
    simpa only [Operation.arrivals_concat, List.map_append, List.sum_append, UInt64.ofNat_add,
      List.flatMap_append, List.foldl_append] using hstep

/-! ## Nothing is lost between the tally and what is emitted -/

omit ha in
/-- What an operation emits and what it leaves in the tally is what it has counted. -/
theorem perm_countedTally {a : Aggregator} (h : a.Coupled) (op : Operation) :
    ((a.operate op).1 ++ (a.operate op).2.tally.entries).Perm (a.countedTally op).entries := by
  have hemitted : (a.operate op).1.Perm
      ((a.countedTally op).entries.filter fun c => decide (c.window ∈ (a.closed op).1)) := by
    refine (perm_operate h op).trans (List.Perm.of_eq ?_)
    rw [frontier_operate, ← filter_countedTally h.sound op]
    refine List.filter_congr fun c hc => ?_
    rw [Bool.eq_iff_iff, decide_eq_true_eq, (closing_closed h.sound op).mem_closed,
      and_iff_right (window_mem_enrolled h op hc)]
  rw [entries_operate]
  exact (hemitted.append_right _).trans (List.filter_append_perm _ _)

omit ha in
/-- An operation emits and leaves no more entries than there were and its record can make. -/
theorem length_operate_le {a : Aggregator} (h : a.Coupled) (op : Operation) :
    (a.operate op).1.length + (a.operate op).2.tally.entries.length ≤
      a.tally.entries.length + op.placements a.windows := by
  have hkept := (perm_countedTally h op).length_eq
  rw [List.length_append] at hkept
  rw [hkept]
  cases op with
  | record r =>
    refine (Tally.length_countWords_le _ _ _).trans (Nat.add_le_add_left ?_ _)
    exact Nat.mul_le_mul_left _ (List.length_filter_le _ _)
  | flush now => exact Nat.le_refl _
  | drain => exact Nat.le_refl _

omit ha in
/-- No amount grows by more than the words that are counted. -/
theorem amount_countedTally_le (a : Aggregator) (op : Operation) (x : String) (w : Window) :
    amount x w (a.countedTally op).entries ≤ amount x w a.tally.entries + a.countedWords op := by
  cases op with
  | record r =>
    have hnodup : (a.admission r).opened.Nodup :=
      (Hopping.nodup_windowsAt a.windows r.timestamp).filter _
    have hcount := List.count_le_length (a := x) (l := (Text.wordsOfBytes r.payload).getD [])
    rw [countedTally, ← admission, Tally.amount_countWords hnodup, countedWords]
    split
    · next hw =>
      have hopen : ¬ (a.admission r).isDropped = true := fun hdrop =>
        List.ne_nil_of_mem hw (List.isEmpty_iff.1 hdrop)
      rw [if_neg hopen]
      omega
    · omega
  | flush now => exact Nat.le_add_right _ _
  | drain => exact Nat.le_add_right _ _

/-- No count of the tally is greater than the number of words that were counted. -/
theorem amount_after_le (x : String) (w : Window) : amount x w (a.after ops).tally.entries ≤
    ((Operation.arrivals ops).map (Arrival.counted s.grace s.allowance a.windows)).sum := by
  induction ops using List.reverseRecOn with
  | nil =>
    obtain ⟨-, -, -, hentries⟩ := frontier_ofSettings ha
    exact Nat.le_of_eq (congrArg (amount x w) hentries)
  | append_singleton ops op ih =>
    have hleft : amount x w ((a.after ops).operate op).2.tally.entries ≤
        amount x w ((a.after ops).countedTally op).entries := by
      have hperm := perm_countedTally (coupled_after (coupled_ofSettings ha) ops) op
      rw [← WordCount.amount_perm hperm, WordCount.amount_append]
      exact Nat.le_add_left _ _
    have hgrown := amount_countedTally_le (a.after ops) op x w
    rw [countedWords_after ha] at hgrown
    rw [after_concat, Operation.arrivals_concat, List.map_append, List.sum_append]
    omega

/-- Counting a record adds an occurrence for each of its words and each open window, as long as no
count stops at the largest number. -/
theorem total_countedTally (op : Operation)
    (hroom : ((Operation.arrivals (ops ++ [op])).map
      (Arrival.counted s.grace s.allowance a.windows)).sum < 2 ^ 64) :
    total ((a.after ops).countedTally op).entries = total (a.after ops).tally.entries +
      ((Operation.arrivalsAfter ops [op]).map
        (Arrival.occurrences s.grace s.allowance a.windows)).sum := by
  cases op with
  | record r =>
    let x : Arrival := ⟨ops, r⟩
    have hone : Operation.arrivalsAfter ops [.record r] = [x] := rfl
    have hopened : ((a.after ops).admission r).opened =
        x.openWindows s.grace s.allowance a.windows := by
      rw [admission_after ha]
    have hnodup : ((a.after ops).admission r).opened.Nodup :=
      (Hopping.nodup_windowsAt _ r.timestamp).filter _
    rw [Operation.arrivals_concat, hone, List.map_append, List.sum_append, List.map_singleton,
      List.sum_singleton] at hroom
    rw [hone, List.map_singleton, List.sum_singleton, countedTally, ← admission,
      Arrival.occurrences, ← hopened]
    by_cases hdrop : x.isDropped s.grace s.allowance a.windows = true
    · have hnone : ((a.after ops).admission r).opened = [] :=
        hopened.trans (List.isEmpty_iff.1 hdrop)
      rw [Tally.total_countWords hnodup _ (by simp [hnone]), hnone]
      rfl
    · rw [Arrival.counted, if_neg hdrop] at hroom ⊢
      refine Tally.total_countWords hnodup _ fun y w _ => ?_
      have hle := amount_after_le ha ops y w
      have hwords : x.words = (Text.wordsOfBytes r.payload).getD [] := rfl
      rw [hwords] at hroom
      omega
  | flush now => rfl
  | drain => rfl

/-- What a run has emitted and what is left in the tally is what it has counted. -/
theorem total_after (hroom : ((Operation.arrivals ops).map
      (Arrival.counted s.grace s.allowance a.windows)).sum < 2 ^ 64) :
    total (a.outputs ops).flatten + total (a.after ops).tally.entries =
      ((Operation.arrivals ops).map (Arrival.occurrences s.grace s.allowance a.windows)).sum := by
  induction ops using List.reverseRecOn with
  | nil =>
    obtain ⟨-, -, -, hentries⟩ := frontier_ofSettings ha
    exact (Nat.zero_add _).trans (congrArg total hentries)
  | append_singleton ops op ih =>
    have hcounted := total_countedTally ha ops op hroom
    have hkept := WordCount.total_perm
      (perm_countedTally (coupled_after (coupled_ofSettings ha) ops) op)
    rw [WordCount.total_append] at hkept
    rw [Operation.arrivals_concat, List.map_append, List.sum_append] at hroom ⊢
    have hbefore := ih (Nat.lt_of_le_of_lt (Nat.le_add_right _ _) hroom)
    rw [outputs_concat, WordCount.total_append, after_concat]
    omega

end

/-! ## The account -/

section
variable (s : ProcessingSettings) (a : Aggregator) (ops : List Operation)

/-- No total of a run has come to `2 ^ 64`. -/
structure NoneWraps : Prop where
  records : (Operation.arrivals ops).length < 2 ^ 64
  counted :
    ((Operation.arrivals ops).map (Arrival.counted s.grace s.allowance a.windows)).sum < 2 ^ 64
  dropped :
    ((Operation.arrivals ops).map (Arrival.dropped s.grace s.allowance a.windows)).sum < 2 ^ 64
  emitted : (a.outputs ops).flatten.length < 2 ^ 64
  openWindows : windowCount (a.after ops).tally.entries < 2 ^ 64

/-- What the statistics and the tally say of a run is what happened in it. -/
structure Accounted : Prop where
  records : (a.after ops).stats.records.toNat = (Operation.arrivals ops).length
  malformed : (a.after ops).stats.malformed.toNat =
    (Operation.arrivals ops).countP Arrival.isMalformed
  /-- Every word is either counted or dropped. -/
  words : (a.after ops).stats.counted.toNat + (a.after ops).stats.lateDropped.toNat =
    ((Operation.arrivals ops).map (·.words.length)).sum
  /-- The words that are counted are those of records with an open window. -/
  counted : (a.after ops).stats.counted.toNat =
    ((Operation.arrivals ops).map (Arrival.counted s.grace s.allowance a.windows)).sum
  watermark : (a.after ops).stats.watermark = Operation.latest ops
  /-- The windows that were emitted, each once. -/
  windows : (a.after ops).stats.windows.toNat = windowCount (a.outputs ops).flatten
  emitted : (a.after ops).stats.emitted.toNat = (a.outputs ops).flatten.length
  openWindows :
    (a.after ops).stats.openWindows.toNat = windowCount (a.after ops).tally.entries
  dropped : (a.after ops).late.dropped = (a.after ops).stats.lateDropped
  accepted : (a.after ops).late.accepted.toNat =
    ((Operation.arrivals ops).map (Arrival.acceptedLate s.grace s.allowance a.windows)).sum
  largest : (a.after ops).late.largest.toInt = ((Operation.arrivals ops).flatMap
    (Arrival.latenesses s.grace s.allowance a.windows)).foldl max 0
  /-- What has been emitted and what the tally holds adds up to what was counted. -/
  conserved : total (a.outputs ops).flatten + total (a.after ops).tally.entries =
    ((Operation.arrivals ops).map (Arrival.occurrences s.grace s.allowance a.windows)).sum

end

/-- After every run from valid settings in which no total has wrapped, the statistics account for
every record, every word and every window. -/
theorem accounted_after {s : ProcessingSettings} {a : Aggregator} (ha : ofSettings s = .ok a)
    (ops : List Operation) (h : NoneWraps s a ops) : Accounted s a ops := by
  have hstats := stats_after ha ops
  obtain ⟨hdropped, haccepted, hlargest⟩ := late_after ha ops
  have htoNat {n : Nat} (hn : n < 2 ^ 64) : (UInt64.ofNat n).toNat = n :=
    UInt64.toNat_ofNat_of_lt' hn
  have hmalformed : (Operation.arrivals ops).countP Arrival.isMalformed < 2 ^ 64 :=
    Nat.lt_of_le_of_lt List.countP_le_length h.records
  have hwindows : windowCount (a.outputs ops).flatten < 2 ^ 64 :=
    Nat.lt_of_le_of_lt (WordCount.windowCount_le_length _) h.emitted
  have haccepts : ((Operation.arrivals ops).map
      (Arrival.acceptedLate s.grace s.allowance a.windows)).sum < 2 ^ 64 :=
    Nat.lt_of_le_of_lt (List.sum_le_sum fun x _ => Arrival.acceptedLate_le_counted _ _ _ x)
      h.counted
  have hcounted : (a.after ops).stats.counted.toNat =
      ((Operation.arrivals ops).map (Arrival.counted s.grace s.allowance a.windows)).sum := by
    rw [hstats]
    exact htoNat h.counted
  have hlate : (a.after ops).stats.lateDropped.toNat =
      ((Operation.arrivals ops).map (Arrival.dropped s.grace s.allowance a.windows)).sum := by
    rw [hstats]
    exact htoNat h.dropped
  refine ⟨?_, ?_, ?_, hcounted, ?_, ?_, ?_, ?_, ?_, ?_, hlargest, total_after ha ops h.counted⟩
  · rw [hstats]
    exact htoNat h.records
  · rw [hstats]
    exact htoNat hmalformed
  · rw [hcounted, hlate, ← List.sum_map_add]
    simp only [Arrival.counted_add_dropped]
  · rw [hstats]
  · rw [hstats]
    exact htoNat hwindows
  · rw [hstats]
    exact htoNat h.emitted
  · rw [hstats]
    exact htoNat h.openWindows
  · rw [hdropped, hstats]
  · rw [haccepted]
    exact htoNat haccepts

/-- The theorem for a run at the default settings with a malformed record, a late one and one whose
word is dropped. -/
theorem accounted_at_default_settings : ∃ a, ofSettings {} = .ok a ∧
    (a.after [.record ⟨0, [97, 32, 98], none⟩, .record ⟨6000, [97], none⟩, .record ⟨7, [255], none⟩,
      .record ⟨5500, [97], none⟩, .record ⟨1, [97], none⟩]).late = ⟨1, 1, 5999⟩ ∧
    Accounted {} a [.record ⟨0, [97, 32, 98], none⟩, .record ⟨6000, [97], none⟩,
      .record ⟨7, [255], none⟩, .record ⟨5500, [97], none⟩, .record ⟨1, [97], none⟩] := by
  refine ⟨_, rfl, by decide +kernel, accounted_after (s := {}) rfl _ ?_⟩
  exact ⟨by decide +kernel, by decide +kernel, by decide +kernel, by decide +kernel,
    by decide +kernel⟩

end Aggregator

end WindowTally
