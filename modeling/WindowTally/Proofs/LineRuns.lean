import WindowTally.Proofs.ArrivalOrder
import WindowTally.Proofs.Unstopped
import WindowTally.Proofs.Words
import WindowTally.Source.Lines

/-!
# Runs over lines

A line source stamps every line with the time at which it is read. `ClockedLines` is one
whose clock goes on; it yields a record for each line before the first that is no text,
and fails there (`ClockedLines.yields`).

So a run over lines that nobody asks to stop, into a sink that takes everything, ends well
just when every line is text, and otherwise with the fault of the first that is none
(`line_run_of_carryAll`). No line is ever a malformed record: an aggregator skips a payload
that is no text, but a line that is none does not get that far, and neither do the lines
after it (`rest_of_lines_unread`).
-/
namespace WindowTally

namespace LineSource

/-! ## Line breaks -/

/-- A line has the same words without its line break. -/
theorem words_stripBreak (cs : List Char) : Text.words (stripBreak cs) = Text.words cs := by
  have hfeed : Text.isWordChar '\n' = false := by decide
  have hreturn : Text.isWordChar '\r' = false := by decide
  unfold stripBreak
  split
  · next rest hreverse =>
    have hcs : cs = rest.reverse ++ ['\r'] ++ ['\n'] := by
      rw [← List.reverse_reverse cs, hreverse]
      simp
    rw [hcs, Text.words_concat hfeed, Text.words_concat hreturn]
  · next rest hother hreverse =>
    have hcs : cs = rest.reverse ++ ['\n'] := by
      rw [← List.reverse_reverse cs, hreverse]
      simp
    rw [hcs, Text.words_concat hfeed]
  · rfl

/-! ## Lines -/

/-- The lines of some bytes, each with its line feed; after the last line feed there is a line only
if bytes follow. -/
def linesOf : List UInt8 → List (List UInt8)
  | [] => []
  | b :: bs =>
    if b = 10 then [b] :: linesOf bs
    else
      match linesOf bs with
      | [] => [[b]]
      | line :: lines => (b :: line) :: lines

/-- Nothing is lost between the lines. -/
theorem flatten_linesOf (bs : List UInt8) : (linesOf bs).flatten = bs := by
  induction bs with
  | nil => rfl
  | cons b bs ih =>
    rw [linesOf]
    split
    · rw [List.flatten_cons, ih]
      rfl
    · split
      · next hnone =>
        rw [hnone] at ih
        rw [← ih]
        rfl
      · next line lines hsome =>
        rw [hsome] at ih
        rw [← ih]
        rfl

/-- The source takes one line after the other. -/
theorem linesOf_cons (b : UInt8) (bs : List UInt8) :
    linesOf (b :: bs) = (cutLine (b :: bs)).1 :: linesOf (cutLine (b :: bs)).2 := by
  induction bs generalizing b with
  | nil => by_cases hb : b = 10 <;> simp [linesOf, cutLine, hb]
  | cons c bs ih =>
    rw [linesOf, cutLine]
    split
    · rfl
    · rw [ih c]

/-- Whether a line is text. -/
def isText (line : List UInt8) : Bool := (Utf8.decode line).isOk

/-- The lines before the first one that is no text. -/
def readable (bs : List UInt8) : List (List UInt8) := (linesOf bs).takeWhile isText

/-- How many words a line has. -/
def wordTotal (line : List UInt8) : Nat := ((Text.wordsOfBytes line).getD []).length

/-- Why a line is no text. -/
def fault? (line : List UInt8) : Option Utf8.Fault :=
  match Utf8.decode line with
  | .ok _ => none
  | .error fault => some fault

/-- Why the first line that is no text is none. -/
def firstFault? (bs : List UInt8) : Option Utf8.Fault := (linesOf bs).findSome? fault?

theorem fault?_eq_none_iff {line : List UInt8} : fault? line = none ↔ isText line = true := by
  unfold fault? isText
  cases Utf8.decode line <;> simp [Except.isOk, Except.toBool]

/-- All lines are text just when there is no first fault. -/
theorem firstFault?_eq_none_iff {bs : List UInt8} :
    firstFault? bs = none ↔ ∀ line ∈ linesOf bs, isText line = true := by
  simp only [firstFault?, List.findSome?_eq_none_iff, fault?_eq_none_iff]

end LineSource

/-! ## A line source whose clock goes on -/

/-- A line source, a clock, and how often it has been asked for a line. -/
structure ClockedLines where
  lines : LineSource
  clock : Nat → Millis
  polls : Nat := 0

namespace ClockedLines

/-- Ask for a line when the clock has gone on. -/
def poll (s : ClockedLines) : Polled × ClockedLines :=
  let (polled, lines) := LineSource.poll { s.lines with now := s.clock s.polls }
  (polled, { s with lines := lines, polls := s.polls + 1 })

instance : Source ClockedLines := ⟨poll⟩

/-- The records of some lines up to the first that is no text, the first of them stamped with the
`n`th time of the clock. -/
def stamped (clock : Nat → Millis) (n : Nat) : List (List UInt8) → List Record
  | [] => []
  | line :: lines =>
    match Utf8.decode line with
    | .ok cs =>
      { timestamp := clock n, payload := Utf8.encode (LineSource.stripBreak cs) } ::
        stamped clock (n + 1) lines
    | .error _ => []

/-- What the source yields before it ends or fails. -/
def records (s : ClockedLines) : List Record :=
  stamped s.clock s.polls (LineSource.linesOf s.lines.bytes)

/-- What it fails with, if it does. -/
def fault? (s : ClockedLines) : Option Fault :=
  (LineSource.firstFault? s.lines.bytes).map fun fault => .source (.notText fault)

theorem yields (s : ClockedLines) : Yields s s.records s.fault? := by
  unfold records fault? LineSource.firstFault?
  generalize hlines : LineSource.linesOf s.lines.bytes = lines
  induction lines generalizing s with
  | nil =>
    have hnone : s.lines.bytes = [] := by
      rw [← LineSource.flatten_linesOf s.lines.bytes, hlines]
      rfl
    have hpoll : Source.poll s = (.ended, { s with
        lines := { s.lines with now := s.clock s.polls }, polls := s.polls + 1 }) := by
      simp [Source.poll, poll, LineSource.poll, hnone]
    exact .ends hpoll
  | cons line lines ih =>
    obtain ⟨b, bs, hbytes⟩ : ∃ b bs, s.lines.bytes = b :: bs := by
      refine List.exists_cons_of_ne_nil fun hnone => ?_
      rw [hnone] at hlines
      cases hlines
    rw [hbytes, LineSource.linesOf_cons] at hlines
    obtain ⟨hline, hrest⟩ := List.cons.inj hlines
    let s' : ClockedLines := { s with
      lines := { s.lines with now := s.clock s.polls, bytes := (LineSource.cutLine (b :: bs)).2 }
      polls := s.polls + 1 }
    cases hdecode : Utf8.decode line with
    | error fault =>
      have hpoll : Source.poll s = (.failed (.source (.notText fault)), s') := by
        simp [Source.poll, poll, LineSource.poll, hbytes, hline, hdecode, s']
      simpa [stamped, LineSource.fault?, hdecode] using Yields.fails hpoll
    | ok cs =>
      have hpoll : Source.poll s =
          (.record ⟨s.clock s.polls, Utf8.encode (LineSource.stripBreak cs), none⟩, s') := by
        simp [Source.poll, poll, LineSource.poll, hbytes, hline, hdecode, s']
      have hlater := ih s' hrest
      simpa [stamped, LineSource.fault?, hdecode] using Yields.yields hpoll hlater

/-- A record has the words of its line. -/
theorem map_words_stamped (clock : Nat → Millis) (n : Nat) (lines : List (List UInt8)) :
    (stamped clock n lines).map (fun r => Text.wordsOfBytes r.payload) =
      (lines.takeWhile LineSource.isText).map Text.wordsOfBytes := by
  induction lines generalizing n with
  | nil => rfl
  | cons line lines ih =>
    rw [stamped]
    cases hdecode : Utf8.decode line with
    | error fault =>
      have hbroken : ¬ LineSource.isText line = true := by
        simp [LineSource.isText, hdecode, Except.isOk, Except.toBool]
      rw [List.takeWhile_cons_of_neg hbroken]
      rfl
    | ok cs =>
      have htext : LineSource.isText line = true := by
        simp [LineSource.isText, hdecode, Except.isOk, Except.toBool]
      have hwords : Text.wordsOfBytes (Utf8.encode (LineSource.stripBreak cs)) =
          Text.wordsOfBytes line := by
        rw [Text.wordsOfBytes_encode, Text.wordsOfBytes, hdecode]
        exact congrArg some (LineSource.words_stripBreak cs)
      rw [List.takeWhile_cons_of_pos htext]
      simp only [List.map_cons, hwords, ih]

theorem isOk_of_mem_stamped {clock : Nat → Millis} {n : Nat} {lines : List (List UInt8)}
    {r : Record} (hr : r ∈ stamped clock n lines) : (Utf8.decode r.payload).isOk = true := by
  induction lines generalizing n with
  | nil => cases hr
  | cons line lines ih =>
    rw [stamped] at hr
    split at hr
    · rcases List.mem_cons.1 hr with rfl | hr
      · rw [Utf8.decode_encode]
        rfl
      · exact ih hr
    · cases hr

theorem length_records (s : ClockedLines) :
    s.records.length = (LineSource.readable s.lines.bytes).length := by
  have hlength := congrArg List.length
    (map_words_stamped s.clock s.polls (LineSource.linesOf s.lines.bytes))
  rwa [List.length_map, List.length_map] at hlength

theorem map_wordTotal (s : ClockedLines) :
    (LineSource.readable s.lines.bytes).map LineSource.wordTotal =
      s.records.map fun r => ((Text.wordsOfBytes r.payload).getD []).length := by
  have hwords := congrArg (List.map fun words : Option (List String) => (words.getD []).length)
    (map_words_stamped s.clock s.polls (LineSource.linesOf s.lines.bytes))
  rw [List.map_map, List.map_map] at hwords
  exact hwords.symm

end ClockedLines

/-- A writer without a limit takes every line. -/
theorem LineSink.takesAll {s : LineSink} (h : s.capacity = none) : Sink.TakesAll s := by
  intro cs
  induction cs generalizing s with
  | nil =>
    intro c
    simp [Sink.after, Sink.deliver, LineSink.deliver, h]
  | cons d cs ih =>
    have hkept : (Sink.deliver s d).2.capacity = none := by
      simp [Sink.deliver, LineSink.deliver, h]
    exact ih hkept

/-! ## Records that come in order -/

namespace Operation

/-- What the wall clock showed when the operation was carried out, if that was looked at. -/
def reading? : Operation → Option Millis
  | .record r => some r.timestamp
  | .flush now => some now
  | .drain => none

theorem map_record_arrivalsAfter (before ops : List Operation) :
    (arrivalsAfter before ops).map Arrival.record = ops.filterMap record? := by
  induction ops generalizing before with
  | nil => rfl
  | cons op ops ih =>
    cases op with
    | record r => exact congrArg (r :: ·) (ih _)
    | flush now | drain => exact ih _

/-- The operations before a record are those that come first. -/
theorem split_of_mem_arrivalsAfter {before ops : List Operation} {x : Arrival}
    (hx : x ∈ arrivalsAfter before ops) :
    ∃ mid after, x.before = before ++ mid ∧ ops = mid ++ .record x.record :: after := by
  induction ops generalizing before with
  | nil => cases hx
  | cons op ops ih =>
    have hlater (hx : x ∈ arrivalsAfter (before ++ [op]) ops) : ∃ mid after,
        x.before = before ++ mid ∧ op :: ops = mid ++ .record x.record :: after := by
      obtain ⟨mid, after, hbefore, rfl⟩ := ih hx
      exact ⟨op :: mid, after, by rw [hbefore, List.append_assoc]; rfl, rfl⟩
    cases op with
    | record r =>
      rcases List.mem_cons.1 hx with rfl | hx
      · exact ⟨[], ops, (List.append_nil _).symm, rfl⟩
      · exact hlater hx
    | flush now | drain => exact hlater hx

end Operation

/-- The words of a record are counted if it lies in a window and nothing before it was later, and no
drain came before it. -/
theorem Arrival.not_isDropped {grace allowance : Millis} (hgrace : ¬ grace < 0)
    (hallowance : ¬ allowance < 0) {h : Hopping} {x : Arrival} (hdrain : .drain ∉ x.before)
    (hclock : ∀ t ∈ x.before.filterMap Operation.reading?, t ≤ x.record.timestamp)
    (hsome : h.windowsAt x.record.timestamp ≠ []) : x.isDropped grace allowance h = false := by
  obtain ⟨w, hw⟩ := List.exists_mem_of_ne_nil _ hsome
  have hstop := Int64.lt_iff_toInt_lt.1 (Hopping.contains_of_mem hw).2
  rw [Int64.lt_iff_toInt_lt, Int64.toInt_zero] at hgrace hallowance
  have hopen : w ∈ x.openWindows grace allowance h := by
    refine List.mem_filter.2 ⟨hw, ?_⟩
    rw [Bool.not_eq_true', decide_eq_false_iff_not]
    rintro ⟨op, hop, hcloses⟩
    have hbefore (t : Millis) (ht : op.reading? = some t) :
        t.toInt ≤ x.record.timestamp.toInt :=
      Int64.le_iff_toInt_le.1 (hclock t (List.mem_filterMap.2 ⟨op, hop, ht⟩))
    cases op with
    | record r =>
      have hle := hbefore r.timestamp rfl
      simp only [Operation.Closes] at hcloses
      omega
    | flush now =>
      have hle := hbefore now rfl
      simp only [Operation.Closes] at hcloses
      omega
    | drain => exact hdrain hop
  rw [isDropped, List.isEmpty_eq_false_iff]
  exact List.ne_nil_of_mem hopen

namespace Pipeline

open Event (counts)

variable {ι σ : Type} [Source ι] [Sink σ] {p q : Pipeline ι σ} {ts : List Turn}

omit [Sink σ] in
theorem hasLeft_of_record {t : Turn} {r : Record} (h : p.operation? t = some (.record r)) :
    p.hasLeft = false := by
  cases t with
  | read =>
    cases hreader : p.reader with
    | polling => rw [hasLeft, hreader]
    | closing =>
      simp only [operation?, hreader] at h
      split at h <;> cases h
    | _ => simp [operation?, hreader] at h
  | _ => simp [operation?] at h

/-- A reader that has left its loop does not come back, and it leaves it before the drain. -/
theorem hasLeft_of_step {t : Turn} (h : p.step t = some q) (hq : q.hasLeft = false) :
    p.hasLeft = false ∧ p.operation? t ≠ some .drain := by
  cases reads_of_step h with
  | aside elsewhere same running notice =>
    rw [hasLeft, same.reader] at hq
    exact ⟨hq, by rw [operation?_of_elsewhere elsewhere]; simp⟩
  | begins phase | checks phase | proceeds phase unasked | goesOn phase =>
    exact ⟨by rw [hasLeft, phase], by simp [operation?, phase]⟩
  | misses phase polled | receives phase polled =>
    exact ⟨by rw [hasLeft, phase], by simp [operation?, phase, polled]⟩
  | flushes phase due => exact ⟨by rw [hasLeft, phase], by simp [operation?]⟩
  | forwards isOpen room left =>
    rcases left with ⟨phase, rfl⟩ | ⟨phase, rfl⟩
    · exact ⟨by rw [hasLeft, phase], by simp [operation?, phase]⟩
    · cases hq
  | _ => cases hq

/-- A reader that has not left its loop has not drained, and none takes in a record after the
drain. -/
theorem drained_last (h : p.steps ts = some q) :
    (q.hasLeft = false → .drain ∉ p.operations ts) ∧
      (p.operations ts).Pairwise fun op op' => op = .drain → op'.takesIn = false := by
  refine steps_induction (P := fun ts q => (q.hasLeft = false → .drain ∉ p.operations ts) ∧
    (p.operations ts).Pairwise fun op op' => op = .drain → op'.takesIn = false)
    ⟨fun _ hin => List.not_mem_nil hin, List.Pairwise.nil⟩ ?_ h
  intro ts t q r hq hr ih
  rw [operations, log_concat _ hq hr, ← operations]
  refine ⟨fun hstays => ?_, ?_⟩
  · obtain ⟨hstayed, hop⟩ := hasLeft_of_step hr hstays
    rw [List.mem_append, Option.mem_toList]
    exact fun hin => hin.elim (ih.1 hstayed) hop
  · refine List.pairwise_append.2 ⟨ih.2, ?_, fun op hin op' hin' hdrain => ?_⟩
    · cases q.operation? t with
      | none => exact List.Pairwise.nil
      | some op => exact List.pairwise_singleton _ op
    · rw [Option.mem_toList] at hin'
      cases op' with
      | record r => exact absurd (hdrain ▸ hin) (ih.1 (hasLeft_of_record hin'))
      | flush now | drain => rfl

section
variable {s : ProcessingSettings} {a : Aggregator} (ha : Aggregator.ofSettings s = .ok a)
  {source : ι} {sink : σ} (hp : p = atRest a source sink)
include ha hp

/-- What the statistics of a run say of reading. -/
theorem stats_of_steps (h : p.steps ts = some q) :
    q.stats.records = UInt64.ofNat (Operation.arrivals (p.operations ts)).length ∧
    q.stats.malformed =
      UInt64.ofNat ((Operation.arrivals (p.operations ts)).countP Arrival.isMalformed) ∧
    q.stats.counted = UInt64.ofNat ((Operation.arrivals (p.operations ts)).map
      (Arrival.counted s.grace s.allowance a.windows)).sum ∧
    q.stats.lateDropped = UInt64.ofNat ((Operation.arrivals (p.operations ts)).map
      (Arrival.dropped s.grace s.allowance a.windows)).sum := by
  have hstats := Aggregator.stats_after ha (p.operations ts)
  have hpart := (emitted_of_steps h).2
  have haggregator : p.aggregator = a := by rw [hp]; rfl
  rw [haggregator] at hpart
  exact ⟨(congrArg (fun a => a.stats.records) hpart).trans (congrArg Stats.records hstats),
    (congrArg (fun a => a.stats.malformed) hpart).trans (congrArg Stats.malformed hstats),
    (congrArg (fun a => a.stats.counted) hpart).trans (congrArg Stats.counted hstats),
    (congrArg (fun a => a.stats.lateDropped) hpart).trans (congrArg Stats.lateDropped hstats)⟩

/-- No word is dropped if the wall clock never goes back and the records lie in windows. -/
theorem dropped_of_inOrder (h : p.steps ts = some q)
    (hclock : ((p.operations ts).filterMap Operation.reading?).Pairwise (· ≤ ·))
    (hsome : ∀ x ∈ Operation.arrivals (p.operations ts),
      a.windows.windowsAt x.record.timestamp ≠ []) : q.stats.lateDropped = 0 := by
  obtain ⟨-, -, -, hdropped⟩ := stats_of_steps ha hp h
  have hvalid := Aggregator.valid_of_ofSettings ha
  have hnone : ((Operation.arrivals (p.operations ts)).map
      (Arrival.dropped s.grace s.allowance a.windows)).sum = 0 := by
    refine List.sum_eq_zero fun n hn => ?_
    obtain ⟨x, hx, rfl⟩ := List.mem_map.1 hn
    have hwindows := hsome x hx
    obtain ⟨before, after, hbefore, hops⟩ := Operation.split_of_mem_arrivalsAfter hx
    rw [List.nil_append] at hbefore
    have hlast := (drained_last h).2
    rw [hops, ← hbefore, List.pairwise_append] at hlast
    rw [hops, ← hbefore, List.filterMap_append, List.pairwise_append] at hclock
    have hcounted : x.isDropped s.grace s.allowance a.windows = false := by
      refine Arrival.not_isDropped (Int64.not_lt.2 hvalid.grace_nonneg)
        (Int64.not_lt.2 hvalid.allowance_nonneg) (fun hdrain => ?_) (fun t ht => ?_) (hsome x hx)
      · have htakes := hlast.2.2 .drain hdrain _ List.mem_cons_self rfl
        cases htakes
      · exact hclock.2.2 t ht _ List.mem_cons_self
    rw [Arrival.dropped, hcounted]
    rfl
  rw [hdropped, hnone]
  rfl

end

/-! ## Runs over lines -/

/-- How a run over lines goes on its way from `p`, which has yet to begin, to `q`, and what it comes
to. -/
structure LineRun (reason : String) (s : ProcessingSettings) (windows : Hopping)
    (source : ClockedLines) (p : Pipeline ClockedLines σ) (ts : List Turn)
    (q : Pipeline ClockedLines σ) : Prop where
  /-- Wherever it is, it can be brought to its end, with no time passing and whatever the wall clock
  shows, unless it breaks off because there is no room for the queue or for windows. -/
  ends : ∀ now, ∃ us answer, (∀ t ∈ us, t.works = true ∨ t = .flush now) ∧
    q.carryAll reason us = some answer ∧ (∀ r, answer = .ok r → r.outcome? ≠ none) ∧
    ∀ overrun, answer = .error overrun →
      maxPermits < s.delivery.bufferSize.toNat ∨ windows.hasRoom = false
  /-- The parties do not take more turns than the lines that are read make for them. -/
  works : ts.countP Turn.works ≤ 4 * (LineSource.readable source.lines.bytes).length + 10 +
    (2 * s.delivery.maxRetries.toNat + 5) *
      (((LineSource.readable source.lines.bytes).map LineSource.wordTotal).sum *
        windows.maxWindows) + 3 * ts.countP Turn.flushes
  /-- No delivery fails, and nothing that was emitted is given up. -/
  unharmed : counts .failed (p.history (ts.map .turn)) = [] ∧
    counts .lost (p.history (ts.map .turn)) = []
  /-- No record is malformed: a line that is no text does not become one. -/
  malformed : q.stats.malformed = 0
  /-- The run comes to the fault of the first line that is no text. -/
  outcome : ∀ outcome, q.outcome? = some outcome → outcome = outcomeOf source.fault?
  /-- So all is well just when every line is text. -/
  ok_iff : ∀ outcome, q.outcome? = some outcome → (outcome = .ok () ↔
    ∀ line ∈ LineSource.linesOf source.lines.bytes, LineSource.isText line = true)
  /-- The lines before it are taken in, and none after it. -/
  records : q.outcome? ≠ none →
    q.stats.records = UInt64.ofNat (LineSource.readable source.lines.bytes).length
  /-- Their words are counted or dropped. -/
  words : q.outcome? ≠ none → q.stats.counted + q.stats.lateDropped =
    UInt64.ofNat ((LineSource.readable source.lines.bytes).map LineSource.wordTotal).sum
  /-- None is dropped if the wall clock never goes back and the lines are stamped at least one window
  length inside the range. -/
  onTime : ((p.operations ts).filterMap Operation.reading?).Pairwise (· ≤ ·) →
    (∀ r ∈ source.records, -2 ^ 63 + s.windowLength.toInt ≤ r.timestamp.toInt ∧
      r.timestamp.toInt ≤ 2 ^ 63 - 1 - s.windowLength.toInt) → q.stats.lateDropped = 0

section
variable {s : ProcessingSettings} {a : Aggregator} (ha : Aggregator.ofSettings s = .ok a)
  {source : ClockedLines} {sink : σ} {p q : Pipeline ClockedLines σ}
  (hp : p = atRest a source sink)
include ha hp

omit [Sink σ] in
/-- The work that is ahead of a run over lines. -/
theorem workAhead_le : p.workAhead source.records ≤
    4 * (LineSource.readable source.lines.bytes).length + 10 +
      (2 * s.delivery.maxRetries.toNat + 5) *
        (((LineSource.readable source.lines.bytes).map LineSource.wordTotal).sum *
          a.windows.maxWindows) := by
  have hunemitted : p.unemitted source.records =
      (source.records.map fun r => (Operation.record r).placements a.windows).sum := by
    obtain ⟨windows, -, -, rfl⟩ := Aggregator.ofSettings_eq_ok ha
    rw [hp]
    exact Nat.zero_add _
  have hplaced : (source.records.map fun r => (Operation.record r).placements a.windows).sum ≤
      ((LineSource.readable source.lines.bytes).map LineSource.wordTotal).sum *
        a.windows.maxWindows := by
    rw [ClockedLines.map_wordTotal, ← List.sum_map_mul_right]
    exact List.sum_le_sum fun r _ => Nat.mul_le_mul_left _ (Hopping.length_windowsAt_le _ _)
  have hmax : p.maxRetries = s.delivery.maxRetries := hp ▸ maxRetries_atRest ha source sink
  have hrest : p.reader = .idle ∧ p.remaining = [] ∧ p.deliveringWork = 3 := by
    rw [hp]
    exact ⟨rfl, rfl, rfl⟩
  rw [workAhead, hrest.1, hrest.2.1, hrest.2.2, hmax, ← ClockedLines.length_records, hunemitted]
  have hmul := Nat.mul_le_mul_left (2 * s.delivery.maxRetries.toNat + 5) hplaced
  simp only [ReaderPhase.turnsAhead, List.length_nil, Nat.zero_add]
  omega

omit ha hp in
theorem map_record_of_outcome (hsteady : p.Steady source.records source.fault?) (hidle : p.Idle)
    (hts : ∀ t ∈ ts, t.asks = false) (h : p.steps ts = some q) (hover : q.outcome? ≠ none) :
    (Operation.arrivals (p.operations ts)).map Arrival.record = source.records := by
  obtain ⟨outcome, houtcome⟩ := Option.ne_none_iff_exists'.1 hover
  rw [Operation.arrivals, Operation.map_record_arrivalsAfter]
  exact (outcome_of_steady hidle hsteady hts h houtcome).1

/-- Wherever a run is, it can be brought to its end, unless there is no room for the queue or for
windows. -/
theorem ends_of_carryAll (hfew : p.slots ≤ maxPermits) (hsink : Sink.TakesAll sink)
    (hts : ∀ t ∈ ts, t.asks = false) {reason : String}
    (hrun : p.carryAll reason ts = some (.ok q)) (now : Millis) :
    ∃ us answer, (∀ t ∈ us, t.works = true ∨ t = .flush now) ∧
      q.carryAll reason us = some answer ∧ (∀ r, answer = .ok r → r.outcome? ≠ none) ∧
      ∀ overrun, answer = .error overrun →
        maxPermits < s.delivery.bufferSize.toNat ∨ a.windows.hasRoom = false := by
  have hmakes := (makeAll_turn reason p ts).trans hrun
  have hsettings : q.settings = p.settings := settings_of_makeAll hmakes
  have hsteady : p.Steady source.records source.fault? :=
    hp ▸ steady_atRest ha source.yields hsink
  obtain ⟨rs, fault, hsteady', -⟩ := passes_of_steps hsteady hts (steps_of_carryAll hfew hrun).1
  have hperiod : q.settings.commitInterval ≠ 0 := by
    rw [hsettings, hp, settings_atRest ha]
    exact (UInt64.ne_of_lt (Aggregator.valid_of_ofSettings ha).commitInterval_pos).symm
  obtain ⟨us, r, hus, hr, hover⟩ := ends_of_steady hsteady' hperiod now
  have hfew' : q.slots ≤ maxPermits := slots_of_makeAll hmakes ▸ hfew
  obtain ⟨answer, hanswer, hends, hbreaks⟩ := ends_or_overruns reason hfew' hr hover
  have hwindows : q.aggregator.windows = a.windows := by
    rw [windows_of_makeAll hmakes, hp]
    rfl
  rw [queueSize, hsettings, ← queueSize, hp, queueSize_atRest ha, hwindows] at hbreaks
  exact ⟨us, answer, hus, hanswer, hends, hbreaks⟩

/-- Once a run is over, the words of its lines have been counted or dropped. -/
theorem words_of_outcome (hsteady : p.Steady source.records source.fault?)
    (hts : ∀ t ∈ ts, t.asks = false) (h : p.steps ts = some q) (hover : q.outcome? ≠ none) :
    q.stats.counted + q.stats.lateDropped =
      UInt64.ofNat ((LineSource.readable source.lines.bytes).map LineSource.wordTotal).sum := by
  have hidle : p.Idle := hp ▸ idle_atRest ha source sink
  obtain ⟨-, -, hcounted, hdropped⟩ := stats_of_steps ha hp h
  have hall : (Operation.arrivals (p.operations ts)).map (·.words.length) =
      source.records.map fun r => ((Text.wordsOfBytes r.payload).getD []).length := by
    rw [← map_record_of_outcome hsteady hidle hts h hover, List.map_map]
    rfl
  rw [hcounted, hdropped, ← UInt64.ofNat_add, ← List.sum_map_add, ClockedLines.map_wordTotal,
    ← hall]
  simp only [Arrival.counted_add_dropped]

/-- A run over lines that nobody asks to stop, into a sink that takes everything, goes as `LineRun`
says, if there is room for the slots. If there is none, no run says that all is well. -/
theorem line_run_of_carryAll (hsink : Sink.TakesAll sink) (hts : ∀ t ∈ ts, t.asks = false)
    {reason : String} (hrun : p.carryAll reason ts = some (.ok q)) :
    (s.delivery.maxInFlight.toNat ≤ maxPermits → LineRun reason s a.windows source p ts q) ∧
    (maxPermits < s.delivery.maxInFlight.toNat → q.outcome? ≠ some (.ok ())) := by
  have hidle : p.Idle := hp ▸ idle_atRest ha source sink
  have hmakes := (makeAll_turn reason p ts).trans hrun
  have hslots : p.slots = s.delivery.maxInFlight.toNat := hp ▸ slots_atRest ha source sink
  rw [← hslots]
  refine ⟨fun hfew => ?_,
    fun hmany => (barren_of_makeAll hmany (hidle.barren reason) hmakes).1.ne_ok⟩
  obtain ⟨h, -⟩ := steps_of_carryAll hfew hrun
  have hsteady : p.Steady source.records source.fault? :=
    hp ▸ steady_atRest ha source.yields hsink
  obtain ⟨_, _, -, hpasses⟩ := passes_of_steps hsteady hts h
  obtain ⟨hrecords, hmalformed, -, -⟩ := stats_of_steps ha hp h
  have htaken (x : Arrival) (hx : x ∈ Operation.arrivals (p.operations ts)) :
      x.record ∈ source.records := by
    rw [← hpasses.records, ← Operation.map_record_arrivalsAfter []]
    exact List.mem_append_left _ (List.mem_map_of_mem hx)
  have houtcome (outcome : Except Fault Unit) (hover : q.outcome? = some outcome) :
      outcome = outcomeOf source.fault? :=
    (outcome_of_steady hidle hsteady hts h hover).2
  refine ⟨ends_of_carryAll ha hp hfew hsink hts hrun, ?_, ⟨hpasses.failed, hpasses.lost⟩, ?_,
    houtcome, fun outcome hover => ?_, fun hover => ?_, words_of_outcome ha hp hsteady hts h,
    fun hclock hrange => ?_⟩
  · have hworks := hpasses.works
    have hahead := workAhead_le ha hp
    omega
  · rw [hmalformed, List.countP_eq_zero.2 fun x hx => ?_]
    · rfl
    · rw [Arrival.isMalformed, ClockedLines.isOk_of_mem_stamped (htaken x hx)]
      decide
  · rw [houtcome outcome hover, ← LineSource.firstFault?_eq_none_iff, ClockedLines.fault?]
    cases LineSource.firstFault? source.lines.bytes <;> simp [outcomeOf]
  · rw [hrecords, ← ClockedLines.length_records, ← map_record_of_outcome hsteady hidle hts h hover,
      List.length_map]
  · refine dropped_of_inOrder ha hp h hclock fun x hx => ?_
    obtain ⟨hlo, hhi⟩ := hrange x.record (htaken x hx)
    rw [← Aggregator.length_ofSettings ha] at hlo hhi
    exact Hopping.windowsAt_ne_nil hlo hhi

end

/-- Two lines of text, `a b` and `c`, the second without a line feed. -/
def textLines : ClockedLines :=
  { lines := { name := "lines", bytes := [97, 32, 98, 13, 10, 99] }, clock := Int64.ofNat }

/-- A run that reads, drains, queues and delivers them. -/
def textRun : List Turn :=
  List.replicate 17 .read ++ List.replicate 6 .dispatch ++ [.offer 0, .offer 0, .offer 0] ++
    [.dispatch, .dispatch, .collect 0, .collect 0, .collect 0, .dispatch, .read]

/-- The theorem for a run over two lines of text at the default settings. -/
theorem line_run_of_text : ∃ a q, Aggregator.ofSettings {} = .ok a ∧
    (atRest a textLines ({ name := "counts" } : LineSink)).carryAll "" textRun = some (.ok q) ∧
    q.outcome? = some (.ok ()) ∧ q.stats.records = 2 ∧ q.stats.counted = 3 ∧
    LineRun "" {} a.windows textLines (atRest a textLines ({ name := "counts" } : LineSink)) textRun
      q := by
  obtain ⟨a, ha⟩ : ∃ a, Aggregator.ofSettings {} = .ok a := ⟨_, rfl⟩
  have hends : (Aggregator.ofSettings {}).toOption.bind (fun a =>
      ((atRest a textLines ({ name := "counts" } : LineSink)).carryAll "" textRun).bind
        fun answer => answer.toOption.map fun q =>
          (q.outcome?, q.stats.records, q.stats.counted)) = some (some (.ok ()), 2, 3) := by
    rfl
  obtain ⟨q, hrun, hends⟩ := exists_of_answer (by rw [ha] at hends; exact hends)
  simp only [Prod.mk.injEq] at hends
  exact ⟨a, q, ha, hrun, hends.1, hends.2.1, hends.2.2,
    (line_run_of_carryAll ha rfl (LineSink.takesAll rfl) (by decide) hrun).1 (by decide)⟩

/-- Three lines, of which the second is no text. -/
def brokenLines : ClockedLines :=
  { lines := { name := "lines", bytes := [97, 10, 255, 10, 98, 10] }
    clock := fun _ => 1700000000000 }

/-- Settings with one window for all the times of our days, and without flushes for an hour. -/
def oneWindow : ProcessingSettings := { windowLength := 4102444800000, commitInterval := 3600000 }

/-- A run over them up to its end. -/
def brokenRun : List Turn := List.replicate 8 .read ++ [.dispatch, .dispatch, .dispatch, .read]

/-- One line that is no text fails the run, though all parties are well: it is not counted as
malformed, the line after it is not read, and the word of the one before it is not emitted. -/
theorem rest_of_lines_unread : ∃ a q, Aggregator.ofSettings oneWindow = .ok a ∧
    Sink.TakesAll ({ name := "counts" } : LineSink) ∧ (∀ t ∈ brokenRun, t.asks = false) ∧
    (LineSource.linesOf brokenLines.lines.bytes).map LineSource.isText = [true, false, true] ∧
    (atRest a brokenLines ({ name := "counts" } : LineSink)).carryAll "" brokenRun = some (.ok q) ∧
    q.outcome? = some (.error (.source (.notText ⟨0, some 1⟩))) ∧
    q.stats.records = 1 ∧ q.stats.malformed = 0 ∧ q.stats.counted = 1 ∧ q.stats.emitted = 0 := by
  obtain ⟨a, ha⟩ : ∃ a, Aggregator.ofSettings oneWindow = .ok a := ⟨_, rfl⟩
  have hends : (Aggregator.ofSettings oneWindow).toOption.bind (fun a =>
      ((atRest a brokenLines ({ name := "counts" } : LineSink)).carryAll "" brokenRun).bind
        fun answer => answer.toOption.map fun q =>
          (q.outcome?, q.stats.records, q.stats.malformed, q.stats.counted, q.stats.emitted)) =
      some (some (.error (.source (.notText ⟨0, some 1⟩))), 1, 0, 1, 0) := by
    rfl
  obtain ⟨q, hrun, hends⟩ := exists_of_answer (by rw [ha] at hends; exact hends)
  simp only [Prod.mk.injEq] at hends
  obtain ⟨hover, hrecords, hmalformed, hcounted, hemitted⟩ := hends
  exact ⟨a, q, ha, LineSink.takesAll rfl, by decide, by decide +kernel, hrun, hover, hrecords,
    hmalformed, hcounted, hemitted⟩

end Pipeline

end WindowTally
