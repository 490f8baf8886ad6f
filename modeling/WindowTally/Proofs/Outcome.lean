import WindowTally.Proofs.Attempts
import WindowTally.Proofs.Reading
import WindowTally.Proofs.StuckWord

/-!
# What a run comes to

A run comes to what reading came to and to the first failure that was collected. The
reader stops for a fault of its source, for a closed queue, or because there is nothing
more to do (`Verdict`); the second happens only after a failure, so the run then returns
that failure and not the closed queue (`failed_of_lost`).

A source may fail with any fault, so with one that says that the queue is closed. This
fault is taken for the reader's own, and gives way to a delivery that has failed
(`conclude_closed_iff`, `closed_by_source`).

`settlement_of_carryAll` puts this together with the balances of the queue and of the
deliveries, in whatever order the parties take their turns.
-/
namespace WindowTally.Pipeline

open Event (counts each)

variable {ι σ : Type} {p q r : Pipeline ι σ}

/-! ## The verdict of the reader -/

/-- What reading comes to, by the faults of the source that were met and what was given up. -/
inductive Verdict : Except Fault Unit → List Fault → List WordCount → Prop where
  | clean : Verdict (.ok ()) [] []
  | broken (fault : Fault) : Verdict (.error fault) [fault] []
  | refused {lost : List WordCount} (some : lost ≠ []) :
    Verdict (.error (.delivery .closed)) [] lost

/-- The reader has met a fault or given something up only if it has stopped for that. -/
def Judged (q : Pipeline ι σ) (faults : List Fault) (lost : List WordCount) : Prop :=
  match q.reader with
  | .finishing reading => Verdict reading faults lost
  | .returned outcome =>
    ∃ reading, Verdict reading faults lost ∧ outcome = conclude reading q.failure
  | _ => faults = [] ∧ lost = []

theorem judged_of_phase {faults : List Fault} {lost : List WordCount}
    (h : p.readerGone = false) : p.Judged faults lost ↔ faults = [] ∧ lost = [] := by
  unfold readerGone at h
  unfold Judged
  cases hreader : p.reader with
  | finishing reading => simp [hreader] at h
  | returned outcome => simp [hreader] at h
  | _ => exact Iff.rfl

section
variable {reading : Except Fault Unit} {failure : Option DeliveryFault} {faults : List Fault}
  {lost : List WordCount}

theorem conclude_ok_iff : conclude (.ok ()) failure = .ok () ↔ failure = none := by
  cases failure <;> simp [conclude]

/-- A fault of reading is what the run comes to, unless it is the closed queue and a failure was
collected. -/
theorem conclude_error_cases (fault : Fault) (failure : Option DeliveryFault) :
    (fault ≠ .delivery .closed ∨ failure = none) ∧ conclude (.error fault) failure = .error fault ∨
      fault = .delivery .closed ∧ ∃ first, failure = some first ∧
        conclude (.error fault) failure = .error (.delivery first) := by
  cases failure with
  | none =>
    refine .inl ⟨.inr rfl, ?_⟩
    unfold conclude
    split <;> simp_all
  | some first =>
    by_cases hclosed : fault = .delivery .closed
    · rw [hclosed]
      exact .inr ⟨rfl, first, rfl, rfl⟩
    · refine .inl ⟨.inl hclosed, ?_⟩
      unfold conclude
      split <;> simp_all

variable (h : Verdict reading faults lost)
include h

theorem conclude_eq_ok_iff :
    conclude reading failure = .ok () ↔ faults = [] ∧ lost = [] ∧ failure = none := by
  cases h with
  | clean => simp [conclude_ok_iff]
  | broken fault =>
    rcases conclude_error_cases fault failure with ⟨-, heq⟩ | ⟨-, first, -, heq⟩ <;> simp [heq]
  | refused some =>
    rcases conclude_error_cases (.delivery .closed) failure with ⟨-, heq⟩ | ⟨-, first, -, heq⟩ <;>
      simp [heq, some]

/-- A fault of the source is what the run comes to, unless it is the closed queue and a failure was
collected: then that is. -/
theorem conclude_of_fault {fault : Fault} (hfault : fault ∈ faults) :
    (fault ≠ .delivery .closed ∨ failure = none → conclude reading failure = .error fault) ∧
      (fault = .delivery .closed →
        ∀ first, failure = some first → conclude reading failure = .error (.delivery first)) := by
  cases h with
  | clean => cases hfault
  | broken fault' =>
    rw [List.mem_singleton.1 hfault]
    rcases conclude_error_cases fault' failure with ⟨hown, heq⟩ | ⟨rfl, first, rfl, heq⟩
    · refine ⟨fun _ => heq, fun hclosed first hfirst => ?_⟩
      rcases hown with hne | hnone
      · exact absurd hclosed hne
      · rw [hnone] at hfirst
        cases hfirst
    · exact ⟨fun hown => by simp at hown, fun _ first' hfirst => by cases hfirst; exact heq⟩
  | refused some => cases hfault

/-- A run that comes to a failure of a delivery which is no fault of its source comes to the one
that was collected first. -/
theorem conclude_eq_delivery {fault : DeliveryFault} (hlost : lost ≠ [] → failure ≠ none)
    (hown : .delivery fault ∉ faults)
    (hconclude : conclude reading failure = .error (.delivery fault)) : failure = some fault := by
  cases h with
  | clean => cases failure <;> simp_all [conclude]
  | broken fault' =>
    rcases conclude_error_cases fault' failure with ⟨-, heq⟩ | ⟨-, first, hfirst, heq⟩
    · rw [heq, Except.error.injEq] at hconclude
      exact absurd (List.mem_singleton.2 hconclude.symm) hown
    · rw [heq] at hconclude
      cases hconclude
      exact hfirst
  | refused some =>
    obtain ⟨first, hfirst⟩ := Option.ne_none_iff_exists'.1 (hlost some)
    rw [hfirst] at hconclude ⊢
    simpa [conclude] using hconclude

/-- The source fails once at most. -/
theorem fault_unique {fault fault' : Fault} (hfault : fault ∈ faults) (hfault' : fault' ∈ faults) :
    fault = fault' := by
  cases h with
  | broken fault => rw [List.mem_singleton.1 hfault, List.mem_singleton.1 hfault']
  | _ => cases hfault

/-- A run comes to a closed queue just when its source says so and nothing has failed. -/
theorem conclude_closed_iff (hlost : lost ≠ [] → failure ≠ none)
    (hfailure : failure ≠ some .closed) :
    conclude reading failure = .error (.delivery .closed) ↔
      .delivery .closed ∈ faults ∧ failure = none := by
  constructor
  · intro hconclude
    by_cases hown : .delivery .closed ∈ faults
    · refine ⟨hown, ?_⟩
      cases failure with
      | none => rfl
      | some first =>
        rw [(conclude_of_fault h hown).2 rfl first rfl] at hconclude
        cases hconclude
        exact absurd rfl hfailure
    · exact absurd (conclude_eq_delivery h hlost hown hconclude) hfailure
  · rintro ⟨hown, hnone⟩
    exact (conclude_of_fault h hown).1 (.inr hnone)

end

section
variable [Sink σ] {m : Move} {es : List Event}

/-- The first failure that is collected stays. -/
theorem failure_of_advance {fault : DeliveryFault} (hp : p.failure = some fault)
    (h : Advance p m es q) : q.failure = some fault := by
  cases h with
  | rests same aggregator inHand result => exact same.failure.trans hp
  | collects ended phase => simp only [hp, Option.some_or]
  | _ => exact hp

/-- The queue is closed after the reader has left or a failure has been collected. -/
theorem closing_of_advance (hq : q.queueClosed = true) (h : Advance p m es q) :
    p.queueClosed = true ∨ p.readerGone = true ∨ q.failure ≠ none := by
  cases h with
  | rests same aggregator inHand result =>
    rw [queueClosed, same.dispatcher] at hq
    exact .inl hq
  | takes queue phase =>
    rcases phase with ⟨-, rfl⟩ | ⟨hphase, -⟩
    · cases hq
    · exact .inl (by rw [queueClosed, hphase])
  | starts phase slot =>
    rcases phase with ⟨-, rfl⟩ | ⟨hphase, -⟩
    · cases hq
    · exact .inl (by rw [queueClosed, hphase])
  | closes phase queue gone => exact .inr (.inl gone)
  | joins phase queue => exact .inl (by rw [queueClosed, phase])
  | finishes phase active settled => exact .inl (by rw [queueClosed, phase])
  | collects ended phase =>
    rcases phase with ⟨-, rfl⟩ | ⟨hphase, -⟩
    · split at hq
      · next hfailed => exact .inr (.inr (Option.isSome_iff_ne_none.1 hfailed))
      · cases hq
    · exact .inl (by rw [queueClosed, hphase])
  | _ => exact .inl hq

theorem failure_of_finished (hp : p.dispatcher = .finished) (h : Advance p m es q) :
    q.failure = p.failure := by
  cases h with
  | rests same aggregator inHand result => exact same.failure
  | collects ended phase =>
    rcases phase with ⟨hphase, -⟩ | ⟨hphase, -⟩
    · rw [hphase] at hp; cases hp
    · rw [hphase] at hp; cases hp
  | _ => rfl

variable [Source ι] {t : Turn} {ts : List Turn} {faults : List Fault} {lost : List WordCount}

theorem judged_of_step (hp : p.Judged faults lost) (horderly : p.Orderly) (h : p.step t = some q) :
    q.Judged (faults ++ (p.sourceFault? t).toList)
      (lost ++ counts .lost (p.events (.turn t))) := by
  have hgoes (hgone : p.readerGone = false) (hstays : q.readerGone = false)
      (hfault : p.sourceFault? t = none) (hkept : p.remaining = [] ∨ p.queueClosed = false) :
      q.Judged (faults ++ (p.sourceFault? t).toList)
        (lost ++ counts .lost (p.events (.turn t))) := by
    obtain ⟨rfl, rfl⟩ := (judged_of_phase hgone).1 hp
    rw [hfault, lost_of_turn]
    refine (judged_of_phase hstays).2 ⟨rfl, ?_⟩
    rcases hkept with hnone | hopen
    · rw [hnone, ite_self, List.append_nil]
    · rw [hopen, if_neg (by simp), List.append_nil]
  cases reads_of_step h with
  | aside elsewhere same running notice =>
    have hfault : p.sourceFault? t = none := by
      cases t with
      | read => exact absurd rfl elsewhere.1
      | _ => rfl
    rw [hfault, lost_of_turn, if_neg fun hread => elsewhere.1 hread.1, Option.toList_none,
      List.append_nil, List.append_nil]
    unfold Judged at hp ⊢
    rw [same.reader]
    cases hreader : p.reader with
    | returned outcome =>
      have hfinished := horderly.returns (by rw [outcome?, hreader]; simp)
      rw [hreader] at hp
      rwa [failure_of_finished hfinished (advance_of_move (m := .turn t) h)]
    | _ => rwa [hreader] at hp
  | begins phase | heeds phase asked | proceeds phase unasked | goesOn phase | drains phase asked =>
    exact hgoes (by rw [readerGone, phase]) rfl (by simp [sourceFault?, phase])
      (.inl (by rw [remaining, phase]; rfl))
  | checks phase =>
    refine hgoes (by rw [readerGone, phase]) ?_ (by simp [sourceFault?, phase])
      (.inl (by rw [remaining, phase]; rfl))
    rw [readerGone]
    cases p.running <;> rfl
  | misses phase polled | receives phase polled | ends phase polled =>
    exact hgoes (by rw [readerGone, phase]) rfl (by simp [sourceFault?, phase, polled])
      (.inl (by rw [remaining, phase]; rfl))
  | breaks phase polled =>
    obtain ⟨rfl, rfl⟩ := (judged_of_phase (by rw [readerGone, phase])).1 hp
    have hnone : p.remaining = [] := by rw [remaining, phase]; rfl
    simp only [lost_of_turn, hnone, ite_self, sourceFault?, phase, polled]
    exact .broken _
  | flushes phase due =>
    exact hgoes (by rw [readerGone, phase]) rfl rfl
      (.inl (by rw [remaining, phase]; rfl))
  | forwards isOpen room left =>
    rcases left with ⟨phase, rfl⟩ | ⟨phase, rfl⟩
    · exact hgoes (by rw [readerGone, phase]) rfl (by simp [sourceFault?, phase]) (.inr isOpen)
    · exact hgoes (by rw [readerGone, phase]) rfl (by simp [sourceFault?, phase]) (.inr isOpen)
  | givesUp isClosed inHand =>
    rcases inHand with phase | phase
    · obtain ⟨rfl, rfl⟩ := (judged_of_phase (by rw [readerGone, phase])).1 hp
      simp only [lost_of_turn, isClosed, and_self, if_true, remaining, sourceFault?, phase]
      exact .refused (List.cons_ne_nil _ _)
    · obtain ⟨rfl, rfl⟩ := (judged_of_phase (by rw [readerGone, phase])).1 hp
      simp only [lost_of_turn, isClosed, and_self, if_true, remaining, sourceFault?, phase]
      exact .refused (List.cons_ne_nil _ _)
  | finishes phase =>
    rcases phase with ⟨phase, -⟩ | phase
    · obtain ⟨rfl, rfl⟩ := (judged_of_phase (by rw [readerGone, phase])).1 hp
      have hnone : p.remaining = [] := by rw [remaining, phase]; rfl
      simp only [lost_of_turn, hnone, ite_self, sourceFault?, phase]
      exact .clean
    · obtain ⟨rfl, rfl⟩ := (judged_of_phase (by rw [readerGone, phase])).1 hp
      have hnone : p.remaining = [] := by rw [remaining, phase]; rfl
      simp only [lost_of_turn, hnone, ite_self, sourceFault?, phase]
      exact .clean
  | returns phase done =>
    have hnone : p.remaining = [] := by rw [remaining, phase]; rfl
    rw [Judged, phase] at hp
    simp only [lost_of_turn, hnone, ite_self, sourceFault?, phase, Option.toList_none,
      List.append_nil]
    exact ⟨_, hp, rfl⟩

/-- A reader that has left has left for good, and a run that it has left is not running. -/
theorem gone_of_step (h : p.step t = some q) : (p.readerGone = true → q.readerGone = true) ∧
    ((p.readerGone = true → p.running = false) → q.readerGone = true → q.running = false) := by
  have hstays (hp : p.readerGone = false) (hq : q.readerGone = false) :
      (p.readerGone = true → q.readerGone = true) ∧
      ((p.readerGone = true → p.running = false) → q.readerGone = true → q.running = false) := by
    rw [hp, hq]
    simp
  cases reads_of_step h with
  | aside elsewhere same running notice =>
    have hgone : q.readerGone = p.readerGone := by rw [readerGone, same.reader]; rfl
    rw [hgone]
    refine ⟨id, fun hp hq => ?_⟩
    rcases running with hrunning | ⟨-, hrunning⟩
    · exact hrunning.trans (hp hq)
    · exact hrunning
  | begins phase | heeds phase asked | proceeds phase unasked | misses phase polled
  | receives phase polled | ends phase polled | flushes phase due | goesOn phase
  | drains phase asked => exact hstays (by rw [readerGone, phase]) rfl
  | checks phase =>
    refine hstays (by rw [readerGone, phase]) ?_
    rw [readerGone]
    cases p.running <;> rfl
  | forwards isOpen room left =>
    rcases left with ⟨phase, rfl⟩ | ⟨phase, rfl⟩
    · exact hstays (by rw [readerGone, phase]) rfl
    · exact hstays (by rw [readerGone, phase]) rfl
  | returns phase done =>
    have hp : p.readerGone = true := by rw [readerGone, phase]
    exact ⟨fun _ => rfl, fun hstopped _ => hstopped hp⟩
  | _ => exact ⟨fun _ => rfl, fun _ _ => rfl⟩

/-! ## Runs -/

theorem judged_of_steps (hp : p.Idle) (h : p.steps ts = some q) :
    q.Judged (p.sourceFaults ts) (counts .lost (p.history (ts.map .turn))) := by
  refine steps_induction (P := fun ts q =>
    q.Judged (p.sourceFaults ts) (counts .lost (p.history (ts.map .turn)))) ?_ ?_ h
  · rw [Judged, hp.reader]
    exact ⟨rfl, rfl⟩
  · intro ts t q r hq hr ih
    have horderly := hp.toFresh.orderly ((moves_turn ts).trans hq)
    rw [sourceFaults, log_concat _ hq hr, history_turn_concat hq hr, Event.counts_append]
    exact judged_of_step ih horderly hr

theorem closing_of_steps (hp : p.Idle) (h : p.steps ts = some q) :
    (q.queueClosed = true → q.readerGone = true ∨ q.failure ≠ none) ∧
      (q.readerGone = true → q.running = false) := by
  refine steps_induction (P := fun _ q =>
    (q.queueClosed = true → q.readerGone = true ∨ q.failure ≠ none) ∧
      (q.readerGone = true → q.running = false)) ?_ ?_ h
  · rw [queueClosed, readerGone, hp.dispatcher, hp.reader]
    simp
  · intro ts t q r hq hr ih
    obtain ⟨hgone, hstopped⟩ := gone_of_step hr
    have hadvance := advance_of_move (m := .turn t) hr
    refine ⟨fun hclosed => ?_, hstopped ih.2⟩
    rcases closing_of_advance hclosed hadvance with hbefore | hleft | hfailed
    · refine (ih.1 hbefore).imp hgone fun hfailed => ?_
      obtain ⟨fault, hfault⟩ := Option.ne_none_iff_exists'.1 hfailed
      rw [failure_of_advance hfault hadvance]
      simp
    · exact .inl (hgone hleft)
    · exact .inr hfailed

theorem reports_of_steps (hp : p.Idle) (h : p.steps ts = some q) :
    (∀ fault, q.Reports fault → ∃ c ∈ counts .failed (p.history (ts.map .turn)), ∃ last,
      fault = .exhausted c.word c.window.id (p.maxRetries + 1) last) ∧
    ((∃ fault, q.Reports fault) ↔ counts .failed (p.history (ts.map .turn)) ≠ []) := by
  refine reports_of_moves hp.tame (fun fault => ?_) ((moves_turn ts).trans h)
  simp [Reports, hp.failure, hp.settled]

/-- Something is given up only after a delivery has failed. -/
theorem failed_of_lost (hp : p.Idle) (h : p.steps ts = some q)
    (hlost : counts .lost (p.history (ts.map .turn)) ≠ []) :
    counts .failed (p.history (ts.map .turn)) ≠ [] := by
  revert hlost
  refine steps_induction (P := fun ts _ => counts .lost (p.history (ts.map .turn)) ≠ [] →
    counts .failed (p.history (ts.map .turn)) ≠ []) (fun hlost => absurd rfl hlost) ?_ h
  intro ts t q r hq hr ih hlost
  rw [history_turn_concat hq hr, Event.counts_append] at hlost ⊢
  refine fun hnone => hlost ?_
  obtain ⟨hbefore, -⟩ := List.append_eq_nil_iff.1 hnone
  refine List.append_eq_nil_iff.2 ⟨not_not.1 fun hsome => ih hsome hbefore, ?_⟩
  rw [lost_of_turn]
  split
  · next hclosed =>
    -- Nothing failed, so only the reader's own leaving can have closed the queue.
    rcases (closing_of_steps hp hq).1 hclosed.2 with hgone | hfailed
    · exact remaining_of_gone hgone
    · obtain ⟨fault, hfault⟩ := Option.ne_none_iff_exists'.1 hfailed
      exact absurd hbefore ((reports_of_steps hp hq).2.1 ⟨fault, .inl hfault⟩)
  · rfl

/-! ### Answers of the sink -/

/-- What the sink answers in a turn, and to the offer of which word count. -/
def answer? (p : Pipeline ι σ) : Turn → Option (WordCount × Except DeliveryFault Unit)
  | .offer i => p.active[i]?.map fun d => (d.count, (Sink.deliver p.sink d.count).1)
  | _ => none

/-- The answers of the sink in a run. -/
def answers (p : Pipeline ι σ) (ts : List Turn) : List (WordCount × Except DeliveryFault Unit) :=
  p.log (fun p t => (p.answer? t).toList) ts

/-- The answers to offers of one word count. -/
def answersTo (c : WordCount) (answers : List (WordCount × Except DeliveryFault Unit)) :
    List (Except DeliveryFault Unit) :=
  (answers.filter fun a => a.1 = c).map (·.2)

/-- Each offer is answered once, and what the sink takes is delivered. -/
theorem answers_of_turn (p : Pipeline ι σ) (t : Turn) :
    (p.answer? t).toList.map (·.1) = counts .attempted (p.events (.turn t)) ∧
      ∀ c, (c, .ok ()) ∈ (p.answer? t).toList → c ∈ counts .delivered (p.events (.turn t)) := by
  cases t with
  | offer i =>
    cases hrunning : p.active[i]? with
    | none => rw [events_offer_none p hrunning, answer?, hrunning]; simp
    | some d =>
      rw [events_offer p hrunning, answer?, hrunning]
      refine ⟨?_, fun c hc => ?_⟩
      · unfold offered
        split
        · next outcome hended => exact (attempted_of_settling d.count outcome).symm
        · rfl
      · have hd : (c, Except.ok ()) = (d.count, (Sink.deliver p.sink d.count).1) := by
          simpa using hc
        obtain ⟨rfl, hok⟩ := Prod.mk.inj hd
        rcases p.answered_cases d with ⟨-, hphase⟩ | ⟨cause, herror, -⟩
        · simp [offered, hphase, ending]
        · rw [herror] at hok
          cases hok
  | read =>
    rw [events_read, Event.counts_append, counts_forwarded (by simp)]
    simp [answer?]
  | flush now => simp [answer?, events_flush]
  | dispatch => simp [answer?, events_dispatch]
  | _ => exact ⟨rfl, fun c hc => absurd hc List.not_mem_nil⟩

theorem answers_of_steps (h : p.steps ts = some q) :
    (p.answers ts).map (·.1) = counts .attempted (p.history (ts.map .turn)) ∧
      ∀ c, (c, .ok ()) ∈ p.answers ts → c ∈ counts .delivered (p.history (ts.map .turn)) := by
  refine steps_induction (P := fun ts _ =>
    (p.answers ts).map (·.1) = counts .attempted (p.history (ts.map .turn)) ∧
      ∀ c, (c, .ok ()) ∈ p.answers ts → c ∈ counts .delivered (p.history (ts.map .turn)))
    ⟨rfl, fun c hc => by cases hc⟩ ?_ h
  intro ts t q r hq hr ih
  obtain ⟨hattempted, hdelivered⟩ := q.answers_of_turn t
  rw [answers, log_concat _ hq hr, history_turn_concat hq hr, Event.counts_append,
    Event.counts_append, List.map_append, hattempted]
  refine ⟨congrArg (· ++ _) ih.1, fun c hc => ?_⟩
  exact List.mem_append.2 ((List.mem_append.1 hc).imp (ih.2 c) (hdelivered c))

theorem length_answersTo (h : p.steps ts = some q) (c : WordCount) :
    (answersTo c (p.answers ts)).length = tries c (p.history (ts.map .turn)) := by
  rw [answersTo, List.length_map, tries, ← (answers_of_steps h).1, List.count_eq_countP,
    List.countP_map, ← List.countP_eq_length_filter]
  rfl

/-! ## Settlement -/

/-- The emitted word counts that the queue never took. -/
def leftOut (es : List Event) : List WordCount :=
  (counts .emitted es).filter fun c => c ∉ counts .accepted es

/-- How a run that is over has turned out: its outcome, measured by the faults of the source that
were met, the answers of the sink, what happened to the word counts, and the state that is left. -/
structure Settlement (maxRetries : UInt32) (faults : List Fault)
    (answers : List (WordCount × Except DeliveryFault Unit)) (es : List Event) (q : Pipeline ι σ)
    (outcome : Except Fault Unit) : Prop where
  /-- All is well just when the source never failed and all that was emitted was queued and
  delivered. -/
  ok_iff : outcome = .ok () ↔ faults = [] ∧
    ∀ c ∈ counts .emitted es, c ∈ counts .accepted es ∧ c ∈ counts .delivered es
  /-- The totals then say so. -/
  totals_of_ok : outcome = .ok () →
    q.stats.delivered = q.stats.emitted ∧ q.stats.failed = 0 ∧ q.stats.pending = 0
  /-- A failed delivery is never passed over. -/
  error_of_failed : q.stats.failed ≠ 0 → ∃ fault, outcome = .error fault
  /-- A failure of a delivery that is no fault of the source is about a word count that the queue
  took, that was offered as often as the retries allow, and that the sink refused each time. -/
  exhausted : ∀ fault, outcome = .error (.delivery fault) → .delivery fault ∉ faults →
    ∃ c ∈ counts .accepted es, ∃ attempts last,
      fault = .exhausted c.word c.window.id attempts last ∧
      attempts.toNat = maxRetries.toNat + 1 ∧ (answersTo c answers).length = attempts.toNat ∧
      ∀ answer ∈ answersTo c answers, ∃ cause, answer = .error cause
  /-- A fault of the source goes before everything else, unless it says that the queue is closed and
  a delivery has failed. -/
  error_of_fault : ∀ fault ∈ faults, fault ≠ .delivery .closed ∨ counts .failed es = [] →
    outcome = .error fault
  /-- Then it gives way to a failure of a delivery. -/
  gives_way : .delivery .closed ∈ faults → counts .failed es ≠ [] →
    ∃ fault, outcome = .error (.delivery fault) ∧ .delivery fault ∉ faults
  /-- So the run says that the queue is closed only if its source has said so. -/
  closed_iff : outcome = .error (.delivery .closed) ↔
    .delivery .closed ∈ faults ∧ counts .failed es = []
  /-- What was emitted was delivered, has failed, or was left out. -/
  balance : (counts .emitted es).Perm
    (counts .delivered es ++ counts .failed es ++ leftOut es)
  /-- The totals agree. -/
  totals : q.stats.emitted =
    q.stats.delivered + q.stats.failed + UInt64.ofNat (leftOut es).length
  /-- Nothing is left out unless a delivery has failed. -/
  failed_of_leftOut : leftOut es ≠ [] → counts .failed es ≠ []
  /-- The pipeline does not say that it still runs. -/
  stopped : q.running = false

omit [Source ι] [Sink σ] in
theorem leftOut_perm {es : List Event} (hnodup : (counts .emitted es).Nodup)
    (hemitted : (counts .emitted es).Perm (counts .accepted es ++ counts .lost es)) :
    (leftOut es).Perm (counts .lost es) := by
  have hfilter := hemitted.filter fun c => c ∉ counts .accepted es
  obtain ⟨-, -, happart⟩ := List.nodup_append.1 (hemitted.nodup_iff.1 hnodup)
  have hnone : (counts .accepted es).filter (fun c => decide (c ∉ counts .accepted es)) = [] :=
    List.filter_eq_nil_iff.2 fun c hc => by simpa using hc
  have hall : (counts .lost es).filter (fun c => decide (c ∉ counts .accepted es)) =
      counts .lost es :=
    List.filter_eq_self.2 fun c hc => decide_eq_true fun hin => happart c hin c hc rfl
  rw [List.filter_append, hnone, hall] at hfilter
  exact hfilter

omit [Source ι] [Sink σ] in
/-- Nothing was given up and nothing failed just when all that was emitted was queued and
delivered. -/
theorem unharmed_iff {es : List Event} (hnodup : (counts .emitted es).Nodup)
    (hemitted : (counts .emitted es).Perm (counts .accepted es ++ counts .lost es))
    (hended : (counts .accepted es).Perm (counts .delivered es ++ counts .failed es)) :
    counts .lost es = [] ∧ counts .failed es = [] ↔
      ∀ c ∈ counts .emitted es, c ∈ counts .accepted es ∧ c ∈ counts .delivered es := by
  obtain ⟨haccepted, -, happart⟩ := List.nodup_append.1 (hemitted.nodup_iff.1 hnodup)
  obtain ⟨-, -, hendings⟩ := List.nodup_append.1 (hended.nodup_iff.1 haccepted)
  constructor
  · rintro ⟨hlost, hfailed⟩ c hc
    rw [hlost, List.append_nil] at hemitted
    rw [hfailed, List.append_nil] at hended
    have hin := hemitted.mem_iff.1 hc
    exact ⟨hin, hended.mem_iff.1 hin⟩
  · intro hall
    refine ⟨List.eq_nil_iff_forall_not_mem.2 fun c hc => ?_,
      List.eq_nil_iff_forall_not_mem.2 fun c hc => ?_⟩
    · have hout := hemitted.mem_iff.2 (List.mem_append_right _ hc)
      exact happart c (hall c hout).1 c hc rfl
    · have hin := hended.mem_iff.2 (List.mem_append_right _ hc)
      have hout := hemitted.mem_iff.2 (List.mem_append_left _ hin)
      exact hendings c (hall c hout).2 c hc rfl

/-- A word count that failed was offered as often as the retries allow, and refused each time. -/
theorem refused_of_failed (hp : p.Idle) (h : p.steps ts = some q)
    (hnodup : (counts .accepted (p.history (ts.map .turn))).Nodup)
    (happart : ∀ c ∈ counts .delivered (p.history (ts.map .turn)),
      c ∉ counts .failed (p.history (ts.map .turn)))
    {c : WordCount} (hc : c ∈ counts .failed (p.history (ts.map .turn))) :
    (p.maxRetries + 1).toNat = p.maxRetries.toNat + 1 ∧
    (answersTo c (p.answers ts)).length = (p.maxRetries + 1).toNat ∧
    ∀ answer ∈ answersTo c (p.answers ts), ∃ cause, answer = .error cause := by
  have hmoves := (moves_turn ts).trans h
  have hmax := maxRetries_lt_of_failed hp.toFresh hmoves (List.ne_nil_of_mem hc)
  have hdistinct : Distinct id (p.history (ts.map .turn)) := by rwa [Distinct, List.map_id]
  have hlast := toNat_succ (UInt32.le_refl p.maxRetries) hmax
  refine ⟨hlast, ?_, fun answer hanswer => ?_⟩
  · rw [length_answersTo h, hlast,
      (attempting_of_moves hmax hp.toFresh hmoves hdistinct).failed c hc,
      maxRetries_of_moves hmoves]
  · obtain ⟨⟨c', answer'⟩, hmem, rfl⟩ := List.mem_map.1 hanswer
    obtain ⟨hin, hkey⟩ := List.mem_filter.1 hmem
    have hcc : c' = c := of_decide_eq_true hkey
    rw [hcc] at hin
    cases answer' with
    | ok u => exact absurd hc (happart c ((answers_of_steps h).2 c hin))
    | error cause => exact ⟨cause, rfl⟩

/-- What the parties leave behind when a run is over. -/
structure Accounts (p : Pipeline ι σ) (ts : List Turn) (q : Pipeline ι σ)
    (outcome : Except Fault Unit) : Prop where
  emitted : (counts .emitted (p.history (ts.map .turn))).Perm
    (counts .accepted (p.history (ts.map .turn)) ++ counts .lost (p.history (ts.map .turn)))
  ended : (counts .accepted (p.history (ts.map .turn))).Perm
    (counts .delivered (p.history (ts.map .turn)) ++ counts .failed (p.history (ts.map .turn)))
  failure_iff : q.failure = none ↔ counts .failed (p.history (ts.map .turn)) = []
  blames : ∀ fault, q.failure = some fault →
    ∃ c ∈ counts .failed (p.history (ts.map .turn)), ∃ last,
      fault = .exhausted c.word c.window.id (p.maxRetries + 1) last
  verdict : ∃ reading,
    Verdict reading (p.sourceFaults ts) (counts .lost (p.history (ts.map .turn))) ∧
      outcome = conclude reading q.failure

theorem accounts_of_steps (hp : p.Idle) (h : p.steps ts = some q) {outcome : Except Fault Unit}
    (hover : q.outcome? = some outcome) : Accounts p ts q outcome := by
  have hmoves := (moves_turn ts).trans h
  have horderly := hp.toFresh.orderly hmoves
  have hfinished := horderly.returns (by simp [hover])
  have hreports (fault : DeliveryFault) : q.Reports fault ↔ q.failure = some fault := by
    simp [Reports, (horderly.joined hfinished).2]
  obtain ⟨hblames, hfailing⟩ := reports_of_steps hp h
  simp only [hreports] at hblames hfailing
  rw [← Option.ne_none_iff_exists'] at hfailing
  refine ⟨?_, ended_of_moves hp.toFresh hmoves hfinished, not_iff_not.1 hfailing, hblames, ?_⟩
  · have hinHand := (reading_of_steps h).1
    have hnothing : p.remaining = [] := by rw [remaining, hp.reader]; rfl
    rwa [hnothing, remaining_of_outcome (by simp [hover]), List.nil_append, List.append_nil]
      at hinHand
  · have hjudged := judged_of_steps hp h
    unfold outcome? at hover
    split at hover
    · next outcome' hreader =>
      cases hover
      rwa [Judged, hreader] at hjudged
    · cases hover

omit [Source ι] [Sink σ] in
theorem idle_atRest {s : ProcessingSettings} {a : Aggregator} (ha : Aggregator.ofSettings s = .ok a)
    (source : ι) (sink : σ) : (atRest a source sink).Idle :=
  ⟨(fresh_atRest ha source sink).1, rfl, rfl, rfl⟩

omit [Source ι] [Sink σ] in
theorem settings_atRest {s : ProcessingSettings} {a : Aggregator}
    (ha : Aggregator.ofSettings s = .ok a) (source : ι) (sink : σ) :
    (atRest a source sink).settings = s := by
  obtain ⟨windows, -, -, rfl⟩ := Aggregator.ofSettings_eq_ok ha
  rfl

omit [Source ι] [Sink σ] in
theorem maxRetries_atRest {s : ProcessingSettings} {a : Aggregator}
    (ha : Aggregator.ofSettings s = .ok a) (source : ι) (sink : σ) :
    (atRest a source sink).maxRetries = s.delivery.maxRetries := by
  obtain ⟨windows, -, -, rfl⟩ := Aggregator.ofSettings_eq_ok ha
  rfl

/-- The totals of a run from valid settings. -/
theorem totals_of_steps {s : ProcessingSettings} {a : Aggregator}
    (ha : Aggregator.ofSettings s = .ok a) {source : ι} {sink : σ}
    (h : (atRest a source sink).steps ts = some q) :
    q.stats.emitted = UInt64.ofNat
        (counts .emitted ((atRest a source sink).history (ts.map .turn))).length ∧
      q.stats.delivered = UInt64.ofNat
        (counts .delivered ((atRest a source sink).history (ts.map .turn))).length ∧
      q.stats.failed = UInt64.ofNat
        (counts .failed ((atRest a source sink).history (ts.map .turn))).length := by
  obtain ⟨hfresh, hzero⟩ := fresh_atRest ha source sink
  have hemitted := (reading_of_steps h).2
  obtain ⟨hdelivered, hfailed⟩ := stats_of_moves ((moves_turn ts).trans h)
  rw [hzero, UInt64.zero_add] at hemitted
  rw [hfresh.delivered, UInt64.zero_add] at hdelivered
  rw [hfresh.failed, UInt64.zero_add] at hfailed
  exact ⟨hemitted, hdelivered, hfailed⟩

/-- Every run from valid settings that is over has turned out as `Settlement` says, whatever the
source, the sink and the order of turns. -/
theorem settlement_of_steps {s : ProcessingSettings} {a : Aggregator}
    (ha : Aggregator.ofSettings s = .ok a) {source : ι} {sink : σ}
    (hp : p = atRest a source sink) (hrun : p.steps ts = some q) {outcome : Except Fault Unit}
    (hover : q.outcome? = some outcome) :
    Settlement s.delivery.maxRetries (p.sourceFaults ts) (p.answers ts)
      (p.history (ts.map .turn)) q outcome := by
  have hidle : p.Idle := hp ▸ idle_atRest ha source sink
  have hmax : p.maxRetries = s.delivery.maxRetries := hp ▸ maxRetries_atRest ha source sink
  obtain ⟨hemitted, hended, hfailure, hblames, reading, hverdict, rfl⟩ :=
    accounts_of_steps hidle hrun hover
  have hnodup : (counts .emitted (p.history (ts.map .turn))).Nodup := by
    refine (nodup_emitted ?_ hrun).of_map
    rw [hp]
    exact Aggregator.coupled_ofSettings ha
  obtain ⟨haccepted, -, -⟩ := List.nodup_append.1 (hemitted.nodup_iff.1 hnodup)
  obtain ⟨-, -, hapart⟩ := List.nodup_append.1 (hended.nodup_iff.1 haccepted)
  have hleftOut := leftOut_perm hnodup hemitted
  obtain ⟨hemits, hdelivers, hfails⟩ := totals_of_steps ha (hp ▸ hrun)
  rw [← hp] at hemits hdelivers hfails
  have htotals : q.stats.emitted = q.stats.delivered + q.stats.failed +
      UInt64.ofNat (leftOut (p.history (ts.map .turn))).length := by
    rw [hemits, hdelivers, hfails, hleftOut.length_eq, hemitted.length_eq, List.length_append,
      hended.length_eq, List.length_append, UInt64.ofNat_add, UInt64.ofNat_add]
  have hlost (hsome : counts .lost (p.history (ts.map .turn)) ≠ []) : q.failure ≠ none :=
    mt hfailure.1 (failed_of_lost hidle hrun hsome)
  have hok : conclude reading q.failure = .ok () ↔ p.sourceFaults ts = [] ∧
      counts .lost (p.history (ts.map .turn)) = [] ∧
        counts .failed (p.history (ts.map .turn)) = [] := by
    rw [conclude_eq_ok_iff hverdict, hfailure]
  have hexhausted : q.failure ≠ some .closed := fun hclosed => by
    obtain ⟨c, -, last, heq⟩ := hblames _ hclosed
    cases heq
  have hfirst (hsome : counts .failed (p.history (ts.map .turn)) ≠ []) :
      ∃ first, q.failure = some first :=
    Option.ne_none_iff_exists'.1 (mt hfailure.1 hsome)
  refine ⟨by rw [hok, unharmed_iff hnodup hemitted hended], fun hclean => ?_, fun hsome => ?_,
    fun fault hfault hown => ?_, fun fault hfault hown => ?_, fun hclosed hsome => ?_, ?_, ?_,
    htotals, fun hsome => ?_, ?_⟩
  · obtain ⟨-, hlost, hfailed⟩ := hok.1 hclean
    rw [hlost, List.perm_nil] at hleftOut
    rw [hfailed] at hfails
    rw [hleftOut, hfails] at htotals
    refine ⟨by simpa using htotals.symm, hfails, ?_⟩
    simp [Stats.pending, htotals]
  · cases hconclude : conclude reading q.failure with
    | ok u => exact absurd (by rw [hfails, (hok.1 hconclude).2.2]; rfl) hsome
    | error fault => exact ⟨fault, rfl⟩
  · obtain ⟨c, hc, last, rfl⟩ := hblames fault (conclude_eq_delivery hverdict hlost hown hfault)
    refine ⟨c, hended.mem_iff.2 (List.mem_append_right _ hc), _, last, rfl, ?_⟩
    rw [← hmax]
    exact refused_of_failed hidle hrun haccepted
      (fun c hdelivered hfailed => hapart c hdelivered c hfailed rfl) hc
  · exact (conclude_of_fault hverdict hfault).1 (hown.imp_right hfailure.2)
  · obtain ⟨first, hfirst⟩ := hfirst hsome
    refine ⟨first, (conclude_of_fault hverdict hclosed).2 rfl first hfirst, fun hown => ?_⟩
    have honly := fault_unique hverdict hclosed hown
    cases honly
    exact hexhausted hfirst
  · rw [conclude_closed_iff hverdict hlost hexhausted, hfailure]
  · exact hemitted.trans (hended.append hleftOut.symm)
  · refine failed_of_lost hidle hrun fun hnone => hsome ?_
    rw [hnone, List.perm_nil] at hleftOut
    exact hleftOut
  · refine (closing_of_steps hidle hrun).2 ?_
    unfold outcome? at hover
    unfold readerGone
    split at hover
    · next hreader => rw [hreader]
    · cases hover

omit [Source ι] [Sink σ] in
theorem slots_atRest {s : ProcessingSettings} {a : Aggregator}
    (ha : Aggregator.ofSettings s = .ok a) (source : ι) (sink : σ) :
    (atRest a source sink).slots = s.delivery.maxInFlight.toNat := by
  have hsome := (Aggregator.valid_of_ofSettings ha).inFlight_pos
  obtain ⟨windows, -, -, rfl⟩ := Aggregator.ofSettings_eq_ok ha
  rw [UInt64.lt_iff_toNat_lt, UInt64.toNat_zero] at hsome
  exact Nat.max_eq_left hsome

omit [Source ι] [Sink σ] in
theorem queueSize_atRest {s : ProcessingSettings} {a : Aggregator}
    (ha : Aggregator.ofSettings s = .ok a) (source : ι) (sink : σ) :
    (atRest a source sink).queueSize = s.delivery.bufferSize.toNat := by
  have hsome := (Aggregator.valid_of_ofSettings ha).buffer_pos
  obtain ⟨windows, -, -, rfl⟩ := Aggregator.ofSettings_eq_ok ha
  rw [UInt64.lt_iff_toNat_lt, UInt64.toNat_zero] at hsome
  exact Nat.max_eq_left hsome

/-- Every run from valid settings that is over has turned out as `Settlement` says, whatever the
source, the sink and the order of turns, if the dispatcher has room for its slots. -/
theorem settlement_of_carryAll {s : ProcessingSettings} {a : Aggregator}
    (ha : Aggregator.ofSettings s = .ok a) {source : ι} {sink : σ}
    (hp : p = atRest a source sink) (hslots : s.delivery.maxInFlight.toNat ≤ maxPermits)
    {reason : String} (hrun : p.carryAll reason ts = some (.ok q)) {outcome : Except Fault Unit}
    (hover : q.outcome? = some outcome) :
    Settlement s.delivery.maxRetries (p.sourceFaults ts) (p.answers ts)
      (p.history (ts.map .turn)) q outcome := by
  rw [← slots_atRest ha source sink, ← hp] at hslots
  exact settlement_of_steps ha hp (steps_of_carryAll hslots hrun).1 hover

/-- The theorem for a run in which a delivery fails and a word count is left out. -/
theorem settlement_closed_early : ∃ q last, stuckFirst.carryAll "" closedEarly = some (.ok q) ∧
    q.outcome? = some (.error (.delivery (.exhausted "a" "0_5000" 1 last))) ∧
    leftOut (stuckFirst.history (closedEarly.map .turn)) = [⟨"d", 1, ⟨0, 5000⟩⟩] ∧
    Settlement 0 [] (stuckFirst.answers closedEarly) (stuckFirst.history (closedEarly.map .turn)) q
      (.error (.delivery (.exhausted "a" "0_5000" 1 last))) := by
  have hend : (stuckFirst.carryAll "" closedEarly).bind (·.toOption.map (·.outcome?)) =
      some (some (.error (.delivery (.exhausted "a" "0_5000" 1
        "sink rejected record for 'a' in window 0_5000: injected failure")))) := by
    rfl
  obtain ⟨q, hrun, hover⟩ := exists_of_answer hend
  have hfaults : stuckFirst.sourceFaults closedEarly = [] := by decide +kernel
  refine ⟨q, _, hrun, hover, by decide +kernel, ?_⟩
  rw [← hfaults]
  exact settlement_of_carryAll (s := tightSettings) (a := tightAggregator) rfl rfl (by decide) hrun
    hover

end

/-! ## A source that says that the queue is closed -/

/-- A source that gives the answers of a list, and then has ended. -/
structure Script where
  answers : List Polled

def Script.poll (s : Script) : Polled × Script :=
  match s.answers with
  | answer :: answers => (answer, ⟨answers⟩)
  | [] => (.ended, s)

instance : Source Script := ⟨Script.poll⟩

/-- A pipeline whose source says at once that the queue is closed. -/
def falseAlarm : Pipeline Script MemorySink :=
  atRest tightAggregator ⟨[.failed (.delivery .closed)]⟩ {}

/-- A run of it up to its end. -/
def alarmed : List Turn := List.replicate 4 .read ++ List.replicate 3 .dispatch ++ [.read]

/-- A pipeline whose source says so after two records, the second of which closes the window of the
first; the sink never takes what is counted there. -/
def lateAlarm : Pipeline Script MemorySink :=
  atRest tightAggregator
    ⟨[.record ⟨0, [97], none⟩, .record ⟨5000, [98], none⟩, .failed (.delivery .closed)]⟩
    { failures := [⟨"a", "0_5000", FailureBudget.always⟩] }

/-- A run of it in which the delivery fails after the source. -/
def alarmedLate : List Turn :=
  List.replicate 13 .read ++ [.dispatch, .dispatch, .offer 0, .dispatch, .dispatch, .collect 0,
    .dispatch, .read]

/-- A source that says that the queue is closed makes a run say so in which nothing has failed; and
where a delivery fails as well, the run does not come to the fault of its source. -/
theorem closed_by_source :
    (∃ q, falseAlarm.carryAll "" alarmed = some (.ok q) ∧ q.stats.failed = 0 ∧
      q.outcome? = some (.error (.delivery .closed))) ∧
    ∃ q, lateAlarm.carryAll "" alarmedLate = some (.ok q) ∧
      .delivery .closed ∈ lateAlarm.sourceFaults alarmedLate ∧
      q.outcome? = some (.error (.delivery (.exhausted "a" "0_5000" 1
        "sink rejected record for 'a' in window 0_5000: injected failure"))) := by
  have hend : (falseAlarm.carryAll "" alarmed).bind (·.toOption.map fun q =>
      (q.stats.failed, q.outcome?)) = some (0, some (.error (.delivery .closed))) := by rfl
  have hlate : (lateAlarm.carryAll "" alarmedLate).bind (·.toOption.map (·.outcome?)) =
      some (some (.error (.delivery (.exhausted "a" "0_5000" 1
        "sink rejected record for 'a' in window 0_5000: injected failure")))) := by rfl
  obtain ⟨q, hrun, hanswer⟩ := exists_of_answer hend
  obtain ⟨r, hrun', hover⟩ := exists_of_answer hlate
  exact ⟨⟨q, hrun, Prod.mk.inj hanswer⟩, r, hrun', by decide +kernel, hover⟩

end WindowTally.Pipeline
