import WindowTally.Proofs.Conservation

/-!
# A word that cannot be delivered, and the others of its window

The reader takes the counts of a window out of the tally before it queues them one
by one. When a delivery runs out of retries the dispatcher closes the queue, and
what the reader has in hand then is refused and given up: it is in no tally, no
queue and no sink any more (`rest_of_window_lost`). A larger queue does not prevent
this, since the queue may close between any two hand-overs.

The loss is exactly that. If one word count fails, those that are emitted are those
that are delivered, the failed one and those given up, and as many deliveries stay
pending as were given up. So the rest of its window is delivered and nothing stays
pending just when the reader was never caught with something in hand by a closed
queue (`stuck_word_spares_others_iff`). The balance behind it is the reader's
(`reading_of_advance`): what it takes from the aggregator it queues, keeps or gives
up.
-/
namespace WindowTally.Pipeline

open Event (counts each)

variable {ι σ : Type} [Sink σ] {p q : Pipeline ι σ}

/-! ## What the reader has in hand -/

/-- What a step does to what the reader has in hand, and to the total of emitted counts. -/
structure Reading (p : Pipeline ι σ) (es : List Event) (q : Pipeline ι σ) : Prop where
  inHand : p.remaining ++ counts .emitted es = counts .accepted es ++ counts .lost es ++ q.remaining
  emitted : q.stats.emitted = p.stats.emitted + UInt64.ofNat (counts .emitted es).length
  /-- Nothing is given up unless the reader has something in hand for a closed queue. -/
  kept : (p.queueClosed = true → p.remaining = []) → counts .lost es = []

theorem reading_of_advance {t : Turn} {es : List Event} (h : Advance p (.turn t) es q) :
    Reading p es q := by
  -- Behind the queue, nothing of this changes.
  have haside {es : List Event} {q : Pipeline ι σ} (hreader : q.remaining = p.remaining)
      (hstats : q.stats.emitted = p.stats.emitted)
      (hes : ∀ stage, stage = .emitted ∨ stage = .accepted ∨ stage = .lost →
        counts stage es = []) : Reading p es q := by
    refine ⟨?_, ?_, fun _ => hes .lost (by simp)⟩
    · rw [hes .emitted (by simp), hes .accepted (by simp), hes .lost (by simp), hreader]
      simp
    · rw [hes .emitted (by simp), hstats]
      simp
  cases h with
  | rests same aggregator inHand result =>
    refine haside inHand ?_ fun _ _ => rfl
    rw [stats, stats, aggregator]
  | @operates op source nextFlush next inHand going taken =>
    have hnext : next.remaining = (p.aggregator.operate op).1 := by rcases taken with rfl | rfl <;> rfl
    refine ⟨?_, ?_, fun _ => by simp⟩
    · rw [inHand]
      simp [remaining, hnext]
    · simp [stats, Aggregator.stats_operate]
  | @forwards c cs next isOpen room inHand left =>
    have hnext : next.remaining = cs := by rcases left with rfl | rfl <;> rfl
    refine ⟨?_, by simp [stats], fun _ => by simp⟩
    rw [inHand]
    simp [remaining, hnext]
  | givesUp isClosed inHand =>
    have hnone : (p.finish (.error (.delivery .closed))).remaining = [] := rfl
    refine ⟨?_, by simp [stats, finish], fun hkept => ?_⟩
    · rw [inHand, hnone]
      simp
    · rw [hkept isClosed] at inHand
      cases inHand
  | takesIn hand isOpen room going => cases hand
  | turnsAway hand isClosed => cases hand
  | starts phase slot =>
    refine haside rfl rfl ?_
    rintro stage (rfl | rfl | rfl) <;> simp
  | @settles i d outcome running phase ended =>
    refine haside rfl ?_ ?_
    · cases outcome <;> simp [stats, countAnswer, ended]
    · rintro stage (rfl | rfl | rfl) <;> cases outcome <;> simp [ending]
  | retries running phase pauses =>
    refine haside rfl ?_ ?_
    · simp [stats, countAnswer, pauses]
    · rintro stage (rfl | rfl | rfl) <;> simp
  | _ => exact haside rfl rfl fun _ _ => rfl

/-- A closed queue stays closed and takes nothing. -/
theorem closed_of_advance {m : Move} {es : List Event} (hp : p.queueClosed = true)
    (h : Advance p m es q) : q.queueClosed = true ∧ counts .accepted es = [] := by
  cases h with
  | rests same aggregator inHand result =>
    rw [queueClosed, same.dispatcher]
    exact ⟨hp, rfl⟩
  | operates op inHand going taken => exact ⟨hp, by simp⟩
  | forwards isOpen room inHand left => rw [hp] at isOpen; cases isOpen
  | givesUp isClosed inHand => exact ⟨hp, by simp⟩
  | takesIn hand isOpen room going => rw [hp] at isOpen; cases isOpen
  | turnsAway hand isClosed => exact ⟨hp, by simp⟩
  | takes queue phase =>
    rcases phase with ⟨hphase, rfl⟩ | ⟨hphase, rfl⟩
    · rw [queueClosed, hphase] at hp; cases hp
    · exact ⟨rfl, rfl⟩
  | starts phase slot =>
    rcases phase with ⟨hphase, rfl⟩ | ⟨hphase, rfl⟩
    · rw [queueClosed, hphase] at hp; cases hp
    · exact ⟨rfl, by simp⟩
  | closes phase queue gone => exact ⟨rfl, rfl⟩
  | joins phase queue => exact ⟨rfl, rfl⟩
  | finishes phase active settled => exact ⟨rfl, rfl⟩
  | collects ended phase =>
    rcases phase with ⟨hphase, rfl⟩ | ⟨hphase, rfl⟩
    · rw [queueClosed, hphase] at hp; cases hp
    · exact ⟨rfl, rfl⟩
  | @settles i d outcome running phase ended =>
    refine ⟨hp, ?_⟩
    cases outcome <;> simp [ending]
  | retries running phase pauses => exact ⟨hp, by simp⟩
  | wakes running phase due => exact ⟨hp, rfl⟩

/-! ## Runs -/

section
variable [Source ι] {ts : List Turn}

/-- What a run does to what the reader has in hand, and to the total of emitted counts. -/
theorem reading_of_steps (h : p.steps ts = some q) :
    (p.remaining ++ counts .emitted (p.history (ts.map .turn))).Perm
      (counts .accepted (p.history (ts.map .turn)) ++ counts .lost (p.history (ts.map .turn)) ++
        q.remaining) ∧
    q.stats.emitted =
      p.stats.emitted + UInt64.ofNat (counts .emitted (p.history (ts.map .turn))).length := by
  induction ts generalizing p with
  | nil =>
    cases h
    simp [history]
  | cons t ts ih =>
    obtain ⟨r, hr, hq, hhistory⟩ := steps_cons h
    obtain ⟨hperm, hstats⟩ := ih hq
    have hfirst := reading_of_advance (advance_of_move hr)
    rw [hhistory]
    refine ⟨?_, ?_⟩
    · rw [List.perm_iff_count]
      intro c
      have hhand := congrArg (List.count c) hfirst.inHand
      have hrest := hperm.count_eq c
      simp only [Event.counts_append, List.count_append] at hhand hrest ⊢
      omega
    · rw [hstats, hfirst.emitted, Event.counts_append, List.length_append, UInt64.ofNat_add,
        UInt64.add_assoc]

theorem accepted_of_closed (hp : p.queueClosed = true) (h : p.steps ts = some q) :
    counts .accepted (p.history (ts.map .turn)) = [] := by
  induction ts generalizing p with
  | nil => rfl
  | cons t ts ih =>
    obtain ⟨r, hr, hq, hhistory⟩ := steps_cons h
    obtain ⟨hclosed, hnone⟩ := closed_of_advance hp (advance_of_move (m := .turn t) hr)
    rw [hhistory, Event.counts_append, hnone, ih hclosed hq]
    rfl

/-- At no time of a run does the reader have something in hand while the queue is closed. -/
def EmptyHanded (p : Pipeline ι σ) (ts : List Turn) : Prop :=
  ∀ us r, us <+: ts → p.steps us = some r → r.queueClosed = true → r.remaining = []

theorem emptyHanded_nil : p.EmptyHanded [] ↔ (p.queueClosed = true → p.remaining = []) := by
  refine ⟨fun h => h [] p (List.prefix_refl []) rfl, fun h us r hus hr => ?_⟩
  rw [List.prefix_nil.1 hus] at hr
  cases hr
  exact h

theorem emptyHanded_cons {t : Turn} (hr : p.step t = some q) : p.EmptyHanded (t :: ts) ↔
    (p.queueClosed = true → p.remaining = []) ∧ q.EmptyHanded ts := by
  constructor
  · intro h
    refine ⟨h [] p List.nil_prefix rfl, fun us r hus hsteps => ?_⟩
    refine h (t :: us) r (List.cons_prefix_cons.2 ⟨rfl, hus⟩) ?_
    rw [steps, hr]
    exact hsteps
  · rintro ⟨hfirst, hrest⟩ us r hus hsteps
    cases us with
    | nil =>
      cases hsteps
      exact hfirst
    | cons u us =>
      obtain ⟨rfl, htail⟩ := List.cons_prefix_cons.1 hus
      rw [steps, hr] at hsteps
      exact hrest us r htail hsteps

/-- A run in which the reader is left with nothing in hand gives nothing up just when a closed queue
never finds it with something in hand. -/
theorem lost_eq_nil_iff (h : p.steps ts = some q) (hq : q.remaining = []) :
    counts .lost (p.history (ts.map .turn)) = [] ↔ p.EmptyHanded ts := by
  induction ts generalizing p with
  | nil =>
    cases h
    rw [emptyHanded_nil]
    exact ⟨fun _ _ => hq, fun _ => rfl⟩
  | cons t ts ih =>
    have hinHand := (reading_of_steps h).1
    have haccepted := fun hclosed => accepted_of_closed hclosed h
    obtain ⟨r, hr, hsteps, hhistory⟩ := steps_cons h
    have hfirst := reading_of_advance (advance_of_move hr)
    rw [emptyHanded_cons hr, ← ih hsteps]
    constructor
    · intro hlost
      refine ⟨fun hclosed => ?_, ?_⟩
      · -- What the reader has in hand can only be given up by now.
        rw [haccepted hclosed, hlost, hq] at hinHand
        exact (List.append_eq_nil_iff.1 hinHand.eq_nil).1
      · rw [hhistory, Event.counts_append] at hlost
        exact (List.append_eq_nil_iff.1 hlost).2
    · rintro ⟨hkept, hrest⟩
      rw [hhistory, Event.counts_append, hfirst.kept hkept, hrest]
      rfl

omit [Source ι] [Sink σ] in
theorem remaining_of_gone (h : p.readerGone = true) : p.remaining = [] := by
  unfold readerGone at h
  split at h
  · next hreader => rw [remaining, hreader]; rfl
  · next hreader => rw [remaining, hreader]; rfl
  · cases h

omit [Source ι] [Sink σ] in
theorem remaining_of_outcome (h : p.outcome? ≠ none) : p.remaining = [] := by
  refine remaining_of_gone ?_
  unfold outcome? at h
  split at h
  · next hreader => rw [readerGone, hreader]
  · exact absurd rfl h

omit [Source ι] [Sink σ] in
theorem fresh_atRest {s : ProcessingSettings} {a : Aggregator} (ha : Aggregator.ofSettings s = .ok a)
    (source : ι) (sink : σ) :
    (atRest a source sink).Fresh ∧ (atRest a source sink).stats.emitted = 0 := by
  obtain ⟨windows, -, -, rfl⟩ := Aggregator.ofSettings_eq_ok ha
  exact ⟨⟨rfl, rfl, rfl, rfl, rfl, rfl⟩, rfl⟩

/-- If one word count of a whole run from valid settings fails, the emitted ones are those delivered,
the failed one and those given up, and as many deliveries stay pending as were given up. The others of
its window are all delivered and nothing stays pending just when no closed queue finds the reader with
something in hand. -/
theorem stuck_word_spares_others_iff {s : ProcessingSettings} {a : Aggregator}
    (ha : Aggregator.ofSettings s = .ok a) {source : ι} {sink : σ}
    (hp : p = atRest a source sink) (hrun : p.steps ts = some q) (hover : q.outcome? ≠ none)
    {x : WordCount} (hfailed : counts .failed (p.history (ts.map .turn)) = [x])
    (hn : (counts .emitted (p.history (ts.map .turn))).length < 2 ^ 64) :
    (((∀ c ∈ counts .emitted (p.history (ts.map .turn)), c.window = x.window → c ≠ x →
        c ∈ counts .delivered (p.history (ts.map .turn))) ∧ q.stats.pending = 0) ↔
      p.EmptyHanded ts) ∧
    (counts .emitted (p.history (ts.map .turn))).Perm
      (counts .delivered (p.history (ts.map .turn)) ++
        x :: counts .lost (p.history (ts.map .turn))) ∧
    q.stats.pending.toNat = (counts .lost (p.history (ts.map .turn))).length := by
  obtain ⟨hfresh, hzero⟩ := fresh_atRest ha source sink
  rw [← hp] at hfresh hzero
  have hnothing : p.remaining = [] := by rw [hp]; rfl
  have hleft := remaining_of_outcome hover
  obtain ⟨hinHand, hemitted⟩ := reading_of_steps hrun
  rw [hnothing, hleft, List.nil_append, List.append_nil] at hinHand
  rw [hzero, UInt64.zero_add] at hemitted
  obtain ⟨-, -, -, -, hsettled⟩ := conserved_of_moves hfresh ((moves_turn ts).trans hrun)
  obtain ⟨hends, -, htotals⟩ := hsettled hover
  have hlength := hinHand.length_eq
  rw [List.length_append] at hlength
  have hpending : q.stats.pending.toNat =
      (counts .lost (p.history (ts.map .turn))).length := by
    have hsum := htotals (by omega)
    have hall : q.stats.emitted.toNat =
        (counts .emitted (p.history (ts.map .turn))).length := by
      rw [hemitted, UInt64.toNat_ofNat_of_lt' (by rw [UInt64.size]; exact hn)]
    rw [Stats.pending, UInt64.toNat_ofNat_of_lt' (by rw [UInt64.size]; omega), hall]
    omega
  have hperm : (counts .emitted (p.history (ts.map .turn))).Perm
      (counts .delivered (p.history (ts.map .turn)) ++
        x :: counts .lost (p.history (ts.map .turn))) := by
    rw [hfailed] at hends
    refine (hinHand.trans (hends.append_right _)).trans ?_
    rw [List.append_assoc]
    exact .refl _
  refine ⟨?_, hperm, hpending⟩
  rw [← lost_eq_nil_iff hrun hleft]
  constructor
  · rintro ⟨-, hnone⟩
    rw [hnone] at hpending
    exact List.length_eq_zero_iff.1 hpending.symm
  · intro hlost
    rw [hlost] at hperm hpending
    refine ⟨fun c hc _ hne => ?_, UInt64.toNat_inj.1 hpending⟩
    rcases List.mem_append.1 (hperm.mem_iff.1 hc) with hdelivered | hx
    · exact hdelivered
    · exact absurd (List.mem_singleton.1 hx) hne

end

/-! ## Two orders of the same run -/

/-- An order of the steps of `stuckFirst` in which everything is queued before the failure of `a` is
collected. -/
def closedLate : List Turn :=
  List.replicate 9 .read ++
    [.read, .dispatch, .dispatch, .read, .dispatch, .read, .offer 0, .dispatch, .dispatch, .read,
      .read, .offer 0, .dispatch, .collect 0, .dispatch, .offer 0, .dispatch, .offer 0, .dispatch,
      .collect 0, .collect 0, .collect 0, .dispatch, .read]

/-- The theorem for a run in which the rest of the window is delivered. -/
theorem stuck_word_spares_others_closed_late : ∃ q, stuckFirst.steps closedLate = some q ∧
    q.outcome? ≠ none ∧ q.stats.pending = 0 ∧ stuckFirst.EmptyHanded closedLate := by
  obtain ⟨q, hrun⟩ : ∃ q, stuckFirst.steps closedLate = some q := ⟨_, rfl⟩
  have hover : ((stuckFirst.steps closedLate).bind (·.outcome?)).isSome = true := by
    decide +kernel
  have hpending : (stuckFirst.steps closedLate).map (·.stats.pending) = some 0 := by
    decide +kernel
  rw [hrun, Option.bind_some, Option.isSome_iff_ne_none] at hover
  rw [hrun, Option.map_some, Option.some_inj] at hpending
  refine ⟨q, hrun, hover, hpending, ?_⟩
  refine (stuck_word_spares_others_iff (s := tightSettings) (a := tightAggregator) rfl rfl hrun hover
    (x := ⟨"a", 1, ⟨0, 5000⟩⟩) (by decide +kernel) (by decide +kernel)).1.1 ⟨?_, hpending⟩
  decide +kernel

/-- With room for one word count in the queue, one delivery at a time and no retries, a run may lose
the rest of a window of which one word cannot be delivered, although the sink would take the rest. -/
theorem rest_of_window_lost : ∃ q, Aggregator.ofSettings tightSettings = .ok tightAggregator ∧
    stuckFirst.steps closedEarly = some q ∧ q.outcome? ≠ none ∧
    counts .failed (stuckFirst.history (closedEarly.map .turn)) = [⟨"a", 1, ⟨0, 5000⟩⟩] ∧
    (∀ c : WordCount, c.word ≠ "a" → stuckFirst.sink.fails c = false) ∧
    ⟨"d", 1, ⟨0, 5000⟩⟩ ∈ counts .emitted (stuckFirst.history (closedEarly.map .turn)) ∧
    ⟨"d", 1, ⟨0, 5000⟩⟩ ∉ counts .delivered (stuckFirst.history (closedEarly.map .turn)) ∧
    q.stats.pending = 1 := by
  obtain ⟨q, hrun⟩ : ∃ q, stuckFirst.steps closedEarly = some q := ⟨_, rfl⟩
  have hover : ((stuckFirst.steps closedEarly).bind (·.outcome?)).isSome = true := by
    decide +kernel
  have hpending : (stuckFirst.steps closedEarly).map (·.stats.pending) = some 1 := by
    decide +kernel
  rw [hrun, Option.bind_some, Option.isSome_iff_ne_none] at hover
  rw [hrun, Option.map_some, Option.some_inj] at hpending
  refine ⟨q, rfl, hrun, hover, by decide +kernel, fun c hc => ?_, by decide +kernel,
    by decide +kernel, hpending⟩
  have hno : ("a" == c.word) = false := by simpa using hc.symm
  simp [MemorySink.fails, MemorySink.concerns, stuckFirst, atRest, hno]

end WindowTally.Pipeline
