import WindowTally.Proofs.Advance
import WindowTally.Proofs.Coupling

/-!
# The reading side of a run

What the reader does depends on deliveries only through the queue. `Reads` lists what
a turn can do to the reading side, that is, to the phase of the reader, the source, the
aggregator without the totals of deliveries and the requests to stop, and
`reads_of_step` says that the list is complete.

A run carries out operations on the aggregator (`operations`), with deliveries in
between. These change nothing of what is counted and emitted: the run emits what the
aggregator emits in the same operations one after the other (`emitted_of_steps`). So
whatever holds of an aggregator that is operated step by step holds of the reading
side of every run.
-/
namespace WindowTally

/-! ## Aggregators without the totals of deliveries -/

namespace Aggregator

/-- The aggregator with other totals of deliveries. -/
def withTotals (a : Aggregator) (delivered failed retries : UInt64) : Aggregator :=
  { a with
    stats := { a.stats with delivered := delivered, failed := failed, retries := retries } }

section
variable (a : Aggregator) (delivered failed retries : UInt64)

theorem withTotals_countWords (adm : Admission) (words : List String) :
    (a.withTotals delivered failed retries).countWords adm words =
      (a.countWords adm words).withTotals delivered failed retries := by
  unfold countWords
  split
  · induction words generalizing a with
    | nil => rfl
    | cons word words ih => exact ih (a.dropWord adm.lateness)
  · induction words generalizing a with
    | nil => rfl
    | cons word words ih => exact ih (a.countWord adm word)

theorem withTotals_countPayload (adm : Admission) (payload : List UInt8) :
    (a.withTotals delivered failed retries).countPayload adm payload =
      (a.countPayload adm payload).withTotals delivered failed retries := by
  unfold countPayload
  split
  · exact withTotals_countWords a delivered failed retries adm _
  · rfl

theorem withTotals_emitWindow (w : Window) :
    (a.withTotals delivered failed retries).emitWindow w =
      ((a.emitWindow w).1, (a.emitWindow w).2.withTotals delivered failed retries) := by
  have htally : (a.withTotals delivered failed retries).tally = a.tally := rfl
  unfold emitWindow
  rw [htally]
  split <;> rfl

theorem withTotals_emitWindows (ws : List Window) :
    (a.withTotals delivered failed retries).emitWindows ws =
      ((a.emitWindows ws).1, (a.emitWindows ws).2.withTotals delivered failed retries) := by
  induction ws generalizing a with
  | nil => rfl
  | cons w ws ih =>
    simp only [emitWindows]
    rw [withTotals_emitWindow, ih]

theorem withTotals_retire (closed : List Window) :
    (a.withTotals delivered failed retries).retire closed =
      ((a.retire closed).1, (a.retire closed).2.withTotals delivered failed retries) := by
  unfold retire
  rw [withTotals_emitWindows]
  rfl

/-- Operations neither look at the totals of deliveries nor change them. -/
theorem withTotals_operate (op : Operation) :
    (a.withTotals delivered failed retries).operate op =
      ((a.operate op).1, (a.operate op).2.withTotals delivered failed retries) := by
  cases op with
  | record r =>
    have hpayload := withTotals_countPayload { a with
        frontier := (a.frontier.enroll r.timestamp (a.windows.windowsAt r.timestamp)).2
        stats := { a.stats with records := a.stats.records + 1 } } delivered failed retries
      (a.frontier.enroll r.timestamp (a.windows.windowsAt r.timestamp)).1 r.payload
    simp only [operate, ingest, ingestInto]
    rw [← withTotals_retire]
    simp only [withTotals] at hpayload ⊢
    rw [hpayload]
  | flush now =>
    exact withTotals_retire { a with frontier := (a.frontier.onFlush now).2 } _ _ _ _
  | drain => exact withTotals_retire { a with frontier := a.frontier.closeAll.2 } _ _ _ _

end

theorem retries_operate (a : Aggregator) (op : Operation) :
    (a.operate op).2.stats.retries = a.stats.retries := by
  have hown := withTotals_operate a a.stats.delivered a.stats.failed a.stats.retries op
  exact congrArg (fun out => out.2.stats.retries) hown

/-- The aggregator with the totals of deliveries at zero: what reading makes and looks at. -/
def readingPart (a : Aggregator) : Aggregator := a.withTotals 0 0 0

theorem readingPart_operate (a : Aggregator) (op : Operation) :
    a.readingPart.operate op = ((a.operate op).1, (a.operate op).2.readingPart) :=
  withTotals_operate a 0 0 0 op

theorem outputs_readingPart (a : Aggregator) (ops : List Operation) :
    a.readingPart.outputs ops = a.outputs ops := by
  induction ops generalizing a with
  | nil => rfl
  | cons op ops ih =>
    rw [outputs_cons, outputs_cons, readingPart_operate]
    exact congrArg _ (ih _)

theorem after_readingPart (a : Aggregator) (ops : List Operation) :
    a.readingPart.after ops = (a.after ops).readingPart := by
  induction ops generalizing a with
  | nil => rfl
  | cons op ops ih =>
    have hfirst : a.readingPart.after (op :: ops) = (a.readingPart.operate op).2.after ops := rfl
    rw [hfirst, readingPart_operate]
    exact ih _

section
variable {a b : Aggregator} (h : a.readingPart = b.readingPart) (ops : List Operation)
include h

theorem outputs_congr : a.outputs ops = b.outputs ops := by
  rw [← outputs_readingPart, h, outputs_readingPart]

theorem after_congr : (a.after ops).readingPart = (b.after ops).readingPart := by
  rw [← after_readingPart, h, after_readingPart]

end

end Aggregator

namespace Pipeline

open Event (counts each)

variable {ι σ : Type} [Source ι] {p q : Pipeline ι σ} {t : Turn}

/-! ## What a turn does to the reading side -/

/-- Both have the same on the reading side, a request to stop apart. -/
structure SameReading (p q : Pipeline ι σ) : Prop where
  reader : q.reader = p.reader
  source : q.source = p.source
  part : q.aggregator.readingPart = p.aggregator.readingPart

/-- What a turn can do to the reading side. -/
inductive Reads (p : Pipeline ι σ) : Turn → Pipeline ι σ → Prop where
  /-- It was someone else's turn. -/
  | aside {t : Turn} {q : Pipeline ι σ} (elsewhere : t ≠ .read ∧ ∀ now, t ≠ .flush now)
      (same : SameReading p q)
      (running : q.running = p.running ∨ t = .clearRunning ∧ q.running = false)
      (notice : q.notice = p.notice ∨ t = .notify) : Reads p t q
  /-- The run began. -/
  | begins (phase : p.reader = .idle) : Reads p .read p.start
  /-- The reader looked whether it is still meant to run. -/
  | checks (phase : p.reader = .checking) :
      Reads p .read { p with reader := if p.running then .waiting else .closing }
  /-- The reader saw a notice to stop. -/
  | heeds (phase : p.reader = .waiting) (asked : p.notice = true) :
      Reads p .read { p with notice := false, reader := .closing }
  /-- The reader saw that a flush is due or that the source is ready. -/
  | proceeds (phase : p.reader = .waiting) (unasked : p.notice = false) :
      Reads p .read { p with reader := .polling }
  /-- The source had nothing yet. -/
  | misses {source : ι} (phase : p.reader = .polling)
      (polled : Source.poll p.source = (.waiting, source)) :
      Reads p .read { p with source := source, reader := .waiting }
  /-- The reader took in a record. -/
  | receives {r : Record} {source : ι} (phase : p.reader = .polling)
      (polled : Source.poll p.source = (.record r, source)) :
      Reads p .read
        { p with
          source := source
          aggregator := (p.aggregator.operate (.record r)).2
          reader := .forwarding (p.aggregator.operate (.record r)).1 }
  /-- The source had ended. -/
  | ends {source : ι} (phase : p.reader = .polling)
      (polled : Source.poll p.source = (.ended, source)) :
      Reads p .read { p with source := source, reader := .closing }
  /-- The source failed. -/
  | breaks {fault : Fault} {source : ι} (phase : p.reader = .polling)
      (polled : Source.poll p.source = (.failed fault, source)) :
      Reads p .read
        { p with source := source, running := false, reader := .finishing (.error fault) }
  /-- The reader flushed. -/
  | flushes {now : Millis} {nextFlush : Nat} (phase : p.reader = .polling)
      (due : p.flushDue = true) :
      Reads p (.flush now)
        { p with
          aggregator := (p.aggregator.operate (.flush now)).2
          nextFlush := nextFlush
          reader := .forwarding (p.aggregator.operate (.flush now)).1 }
  /-- The queue took the reader's next word count. -/
  | forwards {c : WordCount} {cs : List WordCount} {next : ReaderPhase}
      (isOpen : p.queueClosed = false) (room : p.queue.length < p.queueSize)
      (left : p.reader = .forwarding (c :: cs) ∧ next = .forwarding cs ∨
        p.reader = .forwardingLast (c :: cs) ∧ next = .forwardingLast cs) :
      Reads p .read { p with queue := p.queue ++ [c], reader := next }
  /-- The queue refused it, and the reader gave up what it had in hand. -/
  | givesUp {c : WordCount} {cs : List WordCount} (isClosed : p.queueClosed = true)
      (inHand : p.reader = .forwarding (c :: cs) ∨ p.reader = .forwardingLast (c :: cs)) :
      Reads p .read
        { p with running := false, reader := .finishing (.error (.delivery .closed)) }
  /-- All that was emitted is queued. -/
  | goesOn (phase : p.reader = .forwarding []) : Reads p .read { p with reader := .checking }
  /-- The reader drained the aggregator. -/
  | drains (phase : p.reader = .closing) (asked : p.settings.flushOnClose = true) :
      Reads p .read
        { p with
          aggregator := (p.aggregator.operate .drain).2
          reader := .forwardingLast (p.aggregator.operate .drain).1 }
  /-- The reader had nothing more to do. -/
  | finishes (phase : p.reader = .closing ∧ p.settings.flushOnClose = false ∨
        p.reader = .forwardingLast []) :
      Reads p .read { p with running := false, reader := .finishing (.ok ()) }
  /-- The dispatcher was done, and the run returned. -/
  | returns {reading : Except Fault Unit} (phase : p.reader = .finishing reading)
      (done : p.dispatcher = .finished) :
      Reads p .read { p with reader := .returned (conclude reading p.failure) }

theorem reads_of_forward {c : WordCount} {cs : List WordCount} {next : ReaderPhase}
    (left : p.reader = .forwarding (c :: cs) ∧ next = .forwarding cs ∨
      p.reader = .forwardingLast (c :: cs) ∧ next = .forwardingLast cs)
    (h : p.forward c next = some q) : Reads p .read q := by
  unfold forward at h
  split at h
  · next q' hq =>
    cases h
    obtain ⟨hopen, hroom, rfl⟩ := enqueue_eq_ok hq
    exact .forwards hopen hroom left
  · next fault hq =>
    cases h
    obtain ⟨hclosed, rfl⟩ := enqueue_eq_error hq
    exact .givesUp hclosed (left.imp And.left And.left)
  · cases h

theorem reads_of_poll (phase : p.reader = .polling) : Reads p .read p.poll := by
  unfold poll
  cases hpoll : Source.poll p.source with
  | mk polled source =>
    cases polled with
    | record r => exact .receives phase hpoll
    | ended => exact .ends phase hpoll
    | failed fault => exact .breaks phase hpoll
    | waiting => exact .misses phase hpoll

theorem reads_of_read (h : p.read = some q) : Reads p .read q := by
  unfold read at h
  cases hreader : p.reader with
  | idle =>
    rw [hreader] at h
    cases h
    exact .begins hreader
  | checking =>
    rw [hreader] at h
    cases h
    exact .checks hreader
  | waiting =>
    rw [hreader] at h
    simp only at h
    split at h
    · next hnotice =>
      cases h
      exact .heeds hreader hnotice
    · next hnotice =>
      split at h
      · cases h
        exact .proceeds hreader (Bool.not_eq_true _ ▸ hnotice)
      · cases h
  | polling =>
    rw [hreader] at h
    simp only at h
    split at h
    · cases h
    · cases h
      exact reads_of_poll hreader
  | forwarding counts =>
    rw [hreader] at h
    cases counts with
    | nil =>
      cases h
      exact .goesOn hreader
    | cons c cs => exact reads_of_forward (.inl ⟨hreader, rfl⟩) h
  | closing =>
    rw [hreader] at h
    cases h
    unfold close
    by_cases hflush : p.settings.flushOnClose = true
    · rw [if_pos hflush]
      exact .drains hreader hflush
    · rw [if_neg hflush]
      exact .finishes (.inl ⟨hreader, Bool.not_eq_true _ ▸ hflush⟩)
  | forwardingLast counts =>
    rw [hreader] at h
    cases counts with
    | nil =>
      cases h
      exact .finishes (.inr hreader)
    | cons c cs => exact reads_of_forward (.inr ⟨hreader, rfl⟩) h
  | finishing reading =>
    rw [hreader] at h
    simp only at h
    split at h
    · next hfinished =>
      cases h
      exact .returns hreader hfinished
    · cases h
  | returned outcome =>
    rw [hreader] at h
    cases h

/-! ### The other parties -/

section
variable (h : SameReading p q) (running : q.running = p.running) (notice : q.notice = p.notice)
include h running notice

theorem reads_aside (elsewhere : t ≠ .read ∧ ∀ now, t ≠ .flush now) : Reads p t q :=
  .aside elsewhere h (.inl running) (.inl notice)

end

theorem reads_of_dispatch (h : p.dispatch = some q) : Reads p .dispatch q := by
  have haside {q : Pipeline ι σ} (h : SameReading p q) (running : q.running = p.running)
      (notice : q.notice = p.notice) : Reads p .dispatch q :=
    reads_aside h running notice ⟨by simp, by simp⟩
  have hlaunch {c : WordCount} {next : DispatcherPhase} (h : p.launch c next = some q) :
      Reads p .dispatch q := by
    unfold launch at h
    split at h
    · cases h
      exact haside ⟨rfl, rfl, rfl⟩ rfl rfl
    · cases h
  unfold dispatch at h
  split at h
  · split at h
    · cases h
      exact haside ⟨rfl, rfl, rfl⟩ rfl rfl
    · split at h
      · cases h
        exact haside ⟨rfl, rfl, rfl⟩ rfl rfl
      · cases h
  · exact hlaunch h
  · split at h
    · cases h
      exact haside ⟨rfl, rfl, rfl⟩ rfl rfl
    · cases h
      exact haside ⟨rfl, rfl, rfl⟩ rfl rfl
  · exact hlaunch h
  · split at h
    · cases h
      exact haside ⟨rfl, rfl, rfl⟩ rfl rfl
    · cases h
  · cases h

theorem reads_of_collect {i : Nat} (h : p.collect i = some q) : Reads p (.collect i) q := by
  have haside {q : Pipeline ι σ} (h : SameReading p q) (running : q.running = p.running)
      (notice : q.notice = p.notice) : Reads p (.collect i) q :=
    reads_aside h running notice ⟨by simp, by simp⟩
  unfold collect at h
  split at h
  · cases h
  · simp only [note_eq] at h
    split at h
    · cases h
      split <;> exact haside ⟨rfl, rfl, rfl⟩ rfl rfl
    · cases h
      exact haside ⟨rfl, rfl, rfl⟩ rfl rfl
    · cases h

theorem reads_of_offer [Sink σ] {i : Nat} (h : p.offer i = some q) : Reads p (.offer i) q := by
  have hpart (d : Delivery) :
      ({ p.aggregator with stats := countAnswer p.stats d }).readingPart =
        p.aggregator.readingPart := by
    unfold countAnswer
    split <;> rfl
  unfold offer at h
  split at h
  · split at h
    · cases h
      unfold replace
      split
      · exact reads_aside ⟨rfl, rfl, hpart _⟩ rfl rfl ⟨by simp, by simp⟩
      · exact reads_aside ⟨rfl, rfl, hpart _⟩ rfl rfl ⟨by simp, by simp⟩
    · cases h
  · cases h

theorem reads_of_wake {i : Nat} (h : p.wake i = some q) : Reads p (.wake i) q := by
  unfold wake at h
  split at h
  · split at h
    · split at h
      · cases h
        exact reads_aside ⟨rfl, rfl, rfl⟩ rfl rfl ⟨by simp, by simp⟩
      · cases h
    · cases h
  · cases h

/-- Every turn does one of the things that `Reads` lists. -/
theorem reads_of_step [Sink σ] (h : p.step t = some q) : Reads p t q := by
  cases t with
  | read => exact reads_of_read h
  | flush now =>
    simp only [step, flush] at h
    split at h
    · next hreader =>
      split at h
      · next hdue =>
        cases h
        exact .flushes hreader hdue
      · cases h
    · cases h
  | dispatch =>
    simp only [step] at h
    split at h
    · cases h
    · exact reads_of_dispatch h
  | collect i => exact reads_of_collect h
  | offer i => exact reads_of_offer h
  | wake i => exact reads_of_wake h
  | clearRunning =>
    cases h
    exact .aside ⟨by simp, by simp⟩ ⟨rfl, rfl, rfl⟩ (.inr ⟨rfl, rfl⟩) (.inl rfl)
  | notify =>
    simp only [step] at h
    split at h
    · cases h
    · cases h
      exact .aside ⟨by simp, by simp⟩ ⟨rfl, rfl, rfl⟩ (.inl rfl) (.inr rfl)
  | elapse ms =>
    cases h
    exact reads_aside ⟨rfl, rfl, rfl⟩ rfl rfl ⟨by simp, by simp⟩

/-! ## What a run tells about reading -/

section
variable [Sink σ] {r : Pipeline ι σ} {ts : List Turn}

/-- What `look` sees in a run, turn by turn. -/
def log {α : Type} (look : Pipeline ι σ → Turn → List α) (p : Pipeline ι σ) : List Turn → List α
  | [] => []
  | t :: ts =>
    look p t ++
      match p.step t with
      | some q => q.log look ts
      | none => []

theorem log_cons {α : Type} (look : Pipeline ι σ → Turn → List α) (hq : p.step t = some q) :
    p.log look (t :: ts) = look p t ++ q.log look ts := by
  rw [log, hq]

theorem log_concat {α : Type} (look : Pipeline ι σ → Turn → List α) (hq : p.steps ts = some q)
    (hr : q.step t = some r) : p.log look (ts ++ [t]) = p.log look ts ++ look q t := by
  induction ts generalizing p with
  | nil =>
    cases hq
    rw [List.nil_append, log_cons look hr]
    exact List.append_nil _
  | cons t' ts ih =>
    obtain ⟨p', hp', hq', -⟩ := steps_cons hq
    rw [List.cons_append, log_cons look hp', log_cons look hp', ih hq', List.append_assoc]

theorem log_append {α : Type} (look : Pipeline ι σ → Turn → List α) {us : List Turn}
    (h : p.steps ts = some q) : p.log look (ts ++ us) = p.log look ts ++ q.log look us := by
  induction ts generalizing p with
  | nil =>
    cases h
    rfl
  | cons t ts ih =>
    obtain ⟨r, hr, hq, -⟩ := steps_cons h
    rw [List.cons_append, log_cons look hr, log_cons look hr, ih hq, List.append_assoc]

/-- The operations that a run carries out on the aggregator. -/
def operations (p : Pipeline ι σ) (ts : List Turn) : List Operation :=
  p.log (fun p t => (p.operation? t).toList) ts

/-- The fault of the source that the reader meets in a turn. -/
def sourceFault? (p : Pipeline ι σ) : Turn → Option Fault
  | .read =>
    match p.reader with
    | .polling =>
      match (Source.poll p.source).1 with
      | .failed fault => some fault
      | _ => none
    | _ => none
  | _ => none

/-- The faults of the source that the reader meets in a run. -/
def sourceFaults (p : Pipeline ι σ) (ts : List Turn) : List Fault :=
  p.log (fun p t => (p.sourceFault? t).toList) ts

omit [Source ι] [Sink σ] in
theorem counts_handed {stage : Stage} (hstage : stage ≠ .accepted ∧ stage ≠ .refused)
    (p : Pipeline ι σ) (c : WordCount) : counts stage (p.handed c) = [] := by
  unfold handed
  split
  · simp [hstage.1.symm]
  · simp [hstage.2.symm]
  · rfl

omit [Source ι] in
theorem counts_offered {stage : Stage}
    (hstage : stage ≠ .attempted ∧ stage ≠ .delivered ∧ stage ≠ .failed) (p : Pipeline ι σ)
    (d : Delivery) : counts stage (p.offered d) = [] := by
  have hending (outcome : Except DeliveryFault Unit) : ending outcome ≠ stage := by
    cases outcome with
    | ok u => exact hstage.2.1.symm
    | error fault => exact hstage.2.2.symm
  unfold offered
  rw [Event.counts_cons, if_neg hstage.1.symm]
  split
  · simp [hending]
  · rfl

omit [Source ι] [Sink σ] in
theorem counts_forwarded {stage : Stage}
    (hstage : stage ≠ .accepted ∧ stage ≠ .refused ∧ stage ≠ .lost) (p : Pipeline ι σ) :
    counts stage p.forwarded = [] := by
  unfold forwarded
  split
  · rfl
  · rw [Event.counts_append, counts_handed ⟨hstage.1, hstage.2.1⟩]
    split
    · rw [Event.counts_each, if_neg hstage.2.2.symm]
      rfl
    · rfl

omit [Sink σ] in
/-- Only the reader operates the aggregator. -/
theorem operation?_of_elsewhere (h : t ≠ .read ∧ ∀ now, t ≠ .flush now) : p.operation? t = none := by
  cases t with
  | read => exact absurd rfl h.1
  | flush now => exact absurd rfl (h.2 now)
  | _ => rfl

/-- What is emitted in a turn is what the aggregator emits in its operation. -/
theorem emitted_of_turn (p : Pipeline ι σ) (t : Turn) : counts .emitted (p.events (.turn t)) =
    (p.aggregator.outputs (p.operation? t).toList).flatten := by
  have hemits : p.emits t = (p.aggregator.outputs (p.operation? t).toList).flatten := by
    unfold emits
    split
    · next op hop => simp [hop, Aggregator.outputs]
    · next hop => simp [hop, Aggregator.outputs]
  rw [← hemits]
  cases t with
  | read => rw [events_read, Event.counts_append, counts_forwarded (by simp), Event.counts_each,
      if_pos rfl, List.append_nil]
  | flush now => exact Event.counts_each _ _ _
  | dispatch => simp [events_dispatch, emits, operation?]
  | offer i =>
    cases hd : p.active[i]? with
    | some d => rw [events_offer p hd]; exact counts_offered (by simp) _ _
    | none => rw [events_offer_none p hd]; rfl
  | _ => rfl

/-- What is given up in a turn of the reader is what it has in hand for a closed queue. -/
theorem lost_of_turn (p : Pipeline ι σ) (t : Turn) : counts .lost (p.events (.turn t)) =
    if t = .read ∧ p.queueClosed = true then p.remaining else [] := by
  cases t with
  | read =>
    rw [events_read, Event.counts_append, Event.counts_each, forwarded]
    cases hremaining : p.remaining with
    | nil => simp
    | cons c cs =>
      simp only [Event.counts_append, counts_handed (show Stage.lost ≠ .accepted ∧ _ by simp)]
      cases hclosed : p.queueClosed <;> simp
  | flush now => rw [events_flush, Event.counts_each, if_neg (by simp), if_neg (by simp)]
  | dispatch => rw [events_dispatch, Event.counts_each, if_neg (by simp), if_neg (by simp)]
  | offer i =>
    rw [if_neg (by simp)]
    cases hd : p.active[i]? with
    | some d => rw [events_offer p hd, counts_offered (by simp)]
    | none => rw [events_offer_none p hd]; rfl
  | _ => rw [if_neg (by simp)]; rfl

/-- A turn makes of the aggregator what its operation makes of it. -/
theorem readingPart_of_step (h : p.step t = some q) : q.aggregator.readingPart =
    (p.aggregator.after (p.operation? t).toList).readingPart := by
  have hnone (hop : p.operation? t = none) :
      (p.aggregator.after (p.operation? t).toList).readingPart = p.aggregator.readingPart := by
    rw [hop]
    rfl
  cases reads_of_step h with
  | aside elsewhere same running notice =>
    rw [hnone (operation?_of_elsewhere elsewhere), same.part]
  | begins phase => rw [hnone (by simp [operation?, phase])]; rfl
  | checks phase | heeds phase asked | proceeds phase unasked | goesOn phase
  | returns phase done => rw [hnone (by simp [operation?, phase])]
  | misses phase polled | ends phase polled | breaks phase polled =>
    rw [hnone (by simp [operation?, phase, polled])]
  | receives phase polled => simp [operation?, phase, polled, Aggregator.after]
  | flushes phase due => rfl
  | forwards isOpen room left =>
    rcases left with ⟨phase, -⟩ | ⟨phase, -⟩ <;> rw [hnone (by simp [operation?, phase])]
  | givesUp isClosed inHand =>
    rcases inHand with phase | phase <;> rw [hnone (by simp [operation?, phase])]
  | drains phase asked => simp [operation?, phase, asked, Aggregator.after]
  | finishes phase =>
    rcases phase with ⟨phase, unasked⟩ | phase
    · rw [hnone (by simp [operation?, phase, unasked])]
    · rw [hnone (by simp [operation?, phase])]

/-- A run emits what the aggregator emits in the operations of the run, one after the other, and
makes of the aggregator what these make of it. -/
theorem emitted_of_steps (h : p.steps ts = some q) :
    counts .emitted (p.history (ts.map .turn)) =
      (p.aggregator.outputs (p.operations ts)).flatten ∧
    q.aggregator.readingPart = (p.aggregator.after (p.operations ts)).readingPart := by
  induction ts generalizing p with
  | nil =>
    cases h
    exact ⟨rfl, rfl⟩
  | cons t ts ih =>
    obtain ⟨r, hr, hq, hhistory⟩ := steps_cons h
    obtain ⟨hemitted, hpart⟩ := ih hq
    have hfirst := readingPart_of_step hr
    have hoperations : p.operations (t :: ts) = (p.operation? t).toList ++ r.operations ts :=
      log_cons _ hr
    rw [hhistory, Event.counts_append, emitted_of_turn, hemitted, hoperations,
      Aggregator.outputs_append, Aggregator.after_append, List.flatten_append,
      Aggregator.outputs_congr hfirst, hpart, Aggregator.after_congr hfirst]
    exact ⟨rfl, rfl⟩

/-- A run emits no pair of a word and a window twice. -/
theorem nodup_emitted (hp : p.aggregator.Coupled) (h : p.steps ts = some q) :
    ((counts .emitted (p.history (ts.map .turn))).map fun c => (c.word, c.window)).Nodup := by
  rw [(emitted_of_steps h).1]
  exact List.pairwise_map.2
    ((Aggregator.pairwise_emitsBefore hp _).imp WordCount.EmitsBefore.ne)

end

end Pipeline

end WindowTally
