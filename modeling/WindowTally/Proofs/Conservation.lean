import WindowTally.Proofs.Limits

/-!
# Nothing is lost behind the queue

A word count that the queue has taken is queued, held by the dispatcher, being
delivered, delivered or failed, and just one of these; no order of moves loses it or
settles it twice, and the totals of the statistics agree (`conserved_of_moves`).

Two balances carry this, each kept by every move. What was queued leaves in the
order in which it came (`fifo_of_advance`), and the deliveries that were started are
the running ones and those that ended (`perm_of_advance`). Once the dispatcher is
done, neither the queue nor the deliveries hold anything (`Orderly`).

All this takes it that there is room for the slots. Without it the dispatcher breaks down,
and whatever the queue has taken is lost; `accepted_conserved` says for every run what
becomes of what was taken, and `accepted_lost` is a run that loses some.
-/
namespace WindowTally.Pipeline

open Event (counts each)

variable {ι σ : Type} [Sink σ] {p q : Pipeline ι σ} {m : Move}
  {es : List Event}

/-! ## What a move keeps -/

/-- Word counts leave the queue for their deliveries in the order in which they came. -/
theorem fifo_of_advance (h : Advance p m es q) :
    p.held ++ p.queue ++ counts .accepted es = counts .started es ++ (q.held ++ q.queue) := by
  cases h with
  | rests same aggregator inHand result =>
    rw [held, held, same.dispatcher, same.queue]
    simp
  | operates op inHand going taken => simp [held]
  | forwards isOpen room inHand left => simp [held]
  | givesUp isClosed inHand => simp [held, finish]
  | takesIn hand isOpen room going => simp [held]
  | turnsAway hand isClosed => simp
  | takes queue phase =>
    rcases phase with ⟨hphase, rfl⟩ | ⟨hphase, rfl⟩
    · simp [held, hphase, queue]
    · simp [held, hphase, queue]
  | starts phase slot =>
    rcases phase with ⟨hphase, rfl⟩ | ⟨hphase, rfl⟩
    · simp [held, hphase]
    · simp [held, hphase]
  | closes phase queue gone => simp [held, phase]
  | joins phase queue => simp [held, phase]
  | finishes phase active settled => simp [held, phase]
  | collects ended phase =>
    rcases phase with ⟨hphase, rfl⟩ | ⟨hphase, rfl⟩
    · split <;> simp [held, hphase]
    · simp [held, hphase]
  | @settles i d outcome running phase ended =>
    cases outcome <;> simp [held, ending]
  | retries running phase pauses => simp [held]
  | wakes running phase due => simp [held]

omit [Sink σ] in
/-- A delivery keeps its word count when it is put back in its place. -/
theorem underWay_set {i : Nat} {d e : Delivery} (running : p.active[i]? = some d)
    (hd : e.count = d.count) : (p.active.set i e).map (·.count) = p.underWay := by
  obtain ⟨hi, rfl⟩ := List.getElem?_eq_some_iff.1 running
  have hi' : i < p.underWay.length := by simpa [underWay] using hi
  have hget : p.underWay[i] = e.count := by simp [underWay, hd]
  rw [List.map_set, ← hget]
  exact List.set_getElem_self _

theorem count_answered (p : Pipeline ι σ) (d : Delivery) : (p.answered d).count = d.count :=
  d.count_resolve ..

/-- A delivery that is started runs until it ends, and ends once. -/
theorem perm_of_advance (h : Advance p m es q) : (p.underWay ++ counts .started es).Perm
    (q.underWay ++ (counts .delivered es ++ counts .failed es)) := by
  cases h with
  | rests same aggregator inHand result =>
    rw [underWay, underWay, same.active]
    simp
  | operates op inHand going taken => simp [underWay]
  | forwards isOpen room inHand left => simp [underWay]
  | givesUp isClosed inHand => simp [underWay, finish]
  | takesIn hand isOpen room going => simp [underWay]
  | turnsAway hand isClosed => simp
  | takes queue phase => simp [underWay]
  | starts phase slot => simp [underWay]
  | closes phase queue gone => simp [underWay]
  | joins phase queue => simp [underWay]
  | finishes phase active settled => simp [underWay]
  | collects ended phase => simp [underWay]
  | @settles i d outcome running phase ended =>
    obtain ⟨hi, rfl⟩ := List.getElem?_eq_some_iff.1 running
    have hperm := ((List.getElem_cons_eraseIdx_perm hi).map (·.count)).symm
    have hend : counts .delivered
          [⟨.attempted, p.active[i].count⟩, ⟨ending outcome, p.active[i].count⟩] ++
        counts .failed [⟨.attempted, p.active[i].count⟩, ⟨ending outcome, p.active[i].count⟩] =
        [p.active[i].count] := by
      cases outcome <;> simp [ending]
    have hstarted : counts .started
        [⟨.attempted, p.active[i].count⟩, ⟨ending outcome, p.active[i].count⟩] = [] := by
      cases outcome <;> simp [ending]
    rw [hend, hstarted, List.append_nil]
    exact hperm.trans (List.perm_append_singleton _ _).symm
  | @retries i d wake running phase pauses =>
    have hset := underWay_set running (p.count_answered d)
    rw [underWay] at hset
    simp [underWay, hset]
  | @wakes i d t running phase due =>
    have hset := underWay_set (e := { d with phase := .offering }) running rfl
    rw [underWay] at hset
    simp [underWay, hset]

/-- Only what is being delivered is offered to the sink. -/
theorem attempted_of_advance (h : Advance p m es q) {c : WordCount}
    (hc : c ∈ counts .attempted es) : c ∈ p.underWay := by
  cases h with
  | @settles i d outcome running phase ended =>
    have hcd : c = d.count := by cases outcome <;> simpa [ending] using hc
    rw [hcd]
    exact List.mem_map_of_mem (List.mem_of_getElem? running)
  | @retries i d wake running phase pauses =>
    have hcd : c = d.count := by simpa using hc
    rw [hcd]
    exact List.mem_map_of_mem (List.mem_of_getElem? running)
  | _ => simp at hc

/-- The totals of the statistics count the deliveries that ended. -/
theorem stats_of_advance (h : Advance p m es q) :
    q.stats.delivered = p.stats.delivered + UInt64.ofNat (counts .delivered es).length ∧
      q.stats.failed = p.stats.failed + UInt64.ofNat (counts .failed es).length := by
  cases h with
  | rests same aggregator inHand result =>
    rw [stats, stats, aggregator]
    simp
  | operates op inHand going taken =>
    simp [stats, Aggregator.stats_operate, Aggregator.countedStats]
  | givesUp isClosed inHand => simp [stats, finish]
  | settles running phase ended =>
    rename_i outcome
    cases outcome with
    | ok u => simp [stats, countAnswer, ended, ending]
    | error fault => simp [stats, countAnswer, ended, ending]
  | retries running phase pauses => simp [stats, countAnswer, pauses]
  | _ => simp [stats]

/-! ## Shutting down -/

/-- What the dispatcher has left behind when it goes on from one part of its work to the next. -/
structure Orderly (p : Pipeline ι σ) : Prop where
  /-- It joins the deliveries once the closed queue is empty. -/
  emptied : p.dispatcher = .joining ∨ p.dispatcher = .finished → p.queue = []
  /-- It is done once all deliveries are collected. -/
  joined : p.dispatcher = .finished → p.active = [] ∧ p.settled = []
  /-- The run has returned only when it is done. -/
  returns : p.outcome? ≠ none → p.dispatcher = .finished

omit [Sink σ] in
theorem Orderly.outcome_eq_none (hp : p.Orderly) (h : p.dispatcher ≠ .finished) :
    p.outcome? = none := by
  cases hout : p.outcome? with
  | none => rfl
  | some outcome => exact absurd (hp.returns (by simp [hout])) h

omit [Sink σ] in
theorem orderly_of_busy (hq : q.outcome? = none)
    (h : q.dispatcher ≠ .joining ∧ q.dispatcher ≠ .finished) : q.Orderly :=
  ⟨fun hd => absurd hd (not_or.2 h), fun hd => absurd hd h.2, fun hover => absurd hq hover⟩

omit [Sink σ] in
theorem busy_of_open (h : p.queueClosed = false) :
    p.dispatcher ≠ .joining ∧ p.dispatcher ≠ .finished := by
  refine ⟨fun hd => ?_, fun hd => ?_⟩
  · simp [queueClosed, hd] at h
  · simp [queueClosed, hd] at h

theorem orderly_of_advance (hp : p.Orderly) (h : Advance p m es q) : q.Orderly := by
  cases h with
  | rests same aggregator inHand result =>
    refine ⟨?_, ?_, ?_⟩
    · rw [same.dispatcher, same.queue]
      exact hp.emptied
    · rw [same.dispatcher, same.active, same.settled]
      exact hp.joined
    · rw [same.dispatcher]
      intro hq
      rcases result with hsame | hfinished
      · exact hp.returns (hsame ▸ hq)
      · exact hfinished
  | operates op inHand going taken =>
    refine ⟨hp.emptied, hp.joined, fun hover => ?_⟩
    rcases taken with rfl | rfl
    · exact absurd rfl hover
    · exact absurd rfl hover
  | forwards isOpen room inHand left =>
    refine orderly_of_busy ?_ (busy_of_open isOpen)
    rcases left with rfl | rfl
    · rfl
    · rfl
  | givesUp isClosed inHand => exact ⟨hp.emptied, hp.joined, fun hover => absurd rfl hover⟩
  | takesIn hand isOpen room going =>
    exact orderly_of_busy (hp.outcome_eq_none (busy_of_open isOpen).2) (busy_of_open isOpen)
  | turnsAway hand isClosed => exact hp
  | takes queue phase =>
    rcases phase with ⟨hphase, rfl⟩ | ⟨hphase, rfl⟩
    · exact orderly_of_busy (hp.outcome_eq_none (by simp [hphase])) (by simp)
    · exact orderly_of_busy (hp.outcome_eq_none (by simp [hphase])) (by simp)
  | starts phase slot =>
    rcases phase with ⟨hphase, rfl⟩ | ⟨hphase, rfl⟩
    · exact orderly_of_busy (hp.outcome_eq_none (by simp [hphase])) (by simp)
    · exact orderly_of_busy (hp.outcome_eq_none (by simp [hphase])) (by simp)
  | closes phase queue gone =>
    exact orderly_of_busy (hp.outcome_eq_none (by simp [phase])) (by simp)
  | joins phase queue =>
    refine ⟨fun _ => queue, fun hd => ?_, fun hover => ?_⟩
    · cases hd
    · exact absurd (hp.outcome_eq_none (by simp [phase])) hover
  | finishes phase active settled =>
    exact ⟨fun _ => hp.emptied (.inl phase), fun _ => ⟨active, settled⟩, fun _ => rfl⟩
  | collects ended phase =>
    rcases phase with ⟨hphase, rfl⟩ | ⟨hphase, rfl⟩
    · refine orderly_of_busy (hp.outcome_eq_none (by simp [hphase])) ?_
      simp only
      split <;> simp
    · refine ⟨fun _ => hp.emptied (.inl hphase), fun hd => ?_, fun hover => ?_⟩
      · cases hd
      · exact absurd (hp.outcome_eq_none (by simp [hphase])) hover
  | settles running phase ended =>
    refine ⟨hp.emptied, fun hd => ?_, hp.returns⟩
    rw [(hp.joined hd).1] at running
    cases running
  | retries running phase pauses =>
    refine ⟨hp.emptied, fun hd => ?_, hp.returns⟩
    rw [(hp.joined hd).1] at running
    cases running
  | wakes running phase due =>
    refine ⟨hp.emptied, fun hd => ?_, hp.returns⟩
    rw [(hp.joined hd).1] at running
    cases running

/-! ## Runs -/

section
variable [Source ι] {ms : List Move}

theorem fifo_of_moves (h : p.moves ms = some q) :
    p.held ++ p.queue ++ counts .accepted (p.history ms) =
      counts .started (p.history ms) ++ (q.held ++ q.queue) := by
  refine moves_induction (P := fun p es q => p.held ++ p.queue ++ counts .accepted es =
    counts .started es ++ (q.held ++ q.queue)) (fun p => by simp) ?_ h
  intro p m es q es' r hadvance hrest
  have hfirst := fifo_of_advance hadvance
  rw [Event.counts_append, Event.counts_append, ← List.append_assoc, hfirst, List.append_assoc,
    hrest, List.append_assoc]

theorem perm_of_moves (h : p.moves ms = some q) :
    (p.underWay ++ counts .started (p.history ms)).Perm
      (q.underWay ++ (counts .delivered (p.history ms) ++ counts .failed (p.history ms))) := by
  refine moves_induction (P := fun p es q => (p.underWay ++ counts .started es).Perm
    (q.underWay ++ (counts .delivered es ++ counts .failed es))) (fun p => by simp) ?_ h
  intro p m es q es' r hadvance hrest
  rw [List.perm_iff_count]
  intro c
  have hfirst := (perm_of_advance hadvance).count_eq c
  have hsecond := hrest.count_eq c
  simp only [Event.counts_append, List.count_append] at hfirst hsecond ⊢
  omega

theorem attempted_of_moves (h : p.moves ms = some q) :
    ∀ c ∈ counts .attempted (p.history ms), c ∈ p.underWay ++ counts .started (p.history ms) := by
  refine moves_induction (P := fun p es _ => ∀ c ∈ counts .attempted es,
    c ∈ p.underWay ++ counts .started es) (fun p => by simp) ?_ h
  intro p m es q es' r hadvance hrest c hc
  rw [Event.counts_append, List.mem_append] at hc
  rw [Event.counts_append, ← List.append_assoc, List.mem_append]
  rcases hc with hc | hc
  · exact .inl (List.mem_append_left _ (attempted_of_advance hadvance hc))
  · rcases List.mem_append.1 (hrest c hc) with hrunning | hstarted
    · exact .inl ((perm_of_advance hadvance).mem_iff.2 (List.mem_append_left _ hrunning))
    · exact .inr hstarted

theorem stats_of_moves (h : p.moves ms = some q) :
    q.stats.delivered =
        p.stats.delivered + UInt64.ofNat (counts .delivered (p.history ms)).length ∧
      q.stats.failed = p.stats.failed + UInt64.ofNat (counts .failed (p.history ms)).length := by
  refine moves_induction (P := fun p es q =>
    q.stats.delivered = p.stats.delivered + UInt64.ofNat (counts .delivered es).length ∧
      q.stats.failed = p.stats.failed + UInt64.ofNat (counts .failed es).length)
    (fun p => by simp) ?_ h
  intro p m es q es' r hadvance hrest
  have hfirst := stats_of_advance hadvance
  simp only [Event.counts_append, List.length_append, UInt64.ofNat_add, ← UInt64.add_assoc]
  rw [hrest.1, hrest.2, hfirst.1, hfirst.2]
  exact ⟨rfl, rfl⟩

theorem orderly_of_moves (hp : p.Orderly) (h : p.moves ms = some q) : q.Orderly :=
  moves_induction (P := fun p _ q => p.Orderly → q.Orderly) (fun _ => id)
    (fun hadvance hrest hp => hrest (orderly_of_advance hp hadvance)) h hp

end

/-! ## From a fresh start -/

/-- Nothing has been handed to the dispatcher yet. -/
structure Fresh (p : Pipeline ι σ) : Prop where
  outcome : p.outcome? = none
  queue : p.queue = []
  dispatcher : p.dispatcher = .serving
  active : p.active = []
  delivered : p.stats.delivered = 0
  failed : p.stats.failed = 0

/-- What a run that has not begun is like. -/
structure Idle (p : Pipeline ι σ) : Prop extends Fresh p where
  reader : p.reader = .idle
  settled : p.settled = []
  failure : p.failure = none

omit [Sink σ] in
theorem Idle.barren (hp : p.Idle) (reason : String) : p.Barren reason := by
  refine ⟨hp.active, hp.settled, .inl ⟨hp.dispatcher, hp.failure⟩, fun outcome hover => ?_⟩
  rw [hp.outcome] at hover
  cases hover

/-- In every state that moves in any order reach, the word counts that the queue has taken are those
that are queued, held by the dispatcher, being delivered, delivered and failed, each as often as it
was taken; deliveries are started in the order in which the queue took their word counts, and only
those are ever offered to the sink, so none that was refused. Once the run is over all have been
delivered or have failed, and the totals of the two make up their number. -/
theorem conserved_of_moves [Source ι] (hp : p.Fresh) {ms : List Move}
    (hrun : p.moves ms = some q) :
    (counts .accepted (p.history ms)).Perm
      (q.queue ++ q.held ++ q.underWay ++ counts .delivered (p.history ms) ++
        counts .failed (p.history ms)) ∧
    counts .started (p.history ms) <+: counts .accepted (p.history ms) ∧
    (∀ c ∈ counts .attempted (p.history ms), c ∈ counts .started (p.history ms)) ∧
    (∀ c ∈ counts .refused (p.history ms), c ∉ counts .accepted (p.history ms) →
      c ∉ counts .attempted (p.history ms)) ∧
    (q.outcome? ≠ none →
      (counts .accepted (p.history ms)).Perm
        (counts .delivered (p.history ms) ++ counts .failed (p.history ms)) ∧
      q.stats.delivered + q.stats.failed =
        UInt64.ofNat (counts .accepted (p.history ms)).length ∧
      ((counts .accepted (p.history ms)).length < 2 ^ 64 →
        q.stats.delivered.toNat + q.stats.failed.toNat =
          (counts .accepted (p.history ms)).length)) := by
  have hbusy : p.Orderly := orderly_of_busy hp.outcome (by simp [hp.dispatcher])
  have hheld : p.held = [] := by rw [held, hp.dispatcher]
  have hidle : p.underWay = [] := by rw [underWay, hp.active]; rfl
  have hfifo := fifo_of_moves hrun
  have hperm := perm_of_moves hrun
  have horderly := orderly_of_moves hbusy hrun
  have hstats := stats_of_moves hrun
  rw [hheld, hp.queue, List.nil_append, List.nil_append] at hfifo
  rw [hidle, List.nil_append] at hperm
  rw [hp.delivered, hp.failed, UInt64.zero_add, UInt64.zero_add] at hstats
  have hattempted : ∀ c ∈ counts .attempted (p.history ms), c ∈ counts .started (p.history ms) := by
    intro c hc
    simpa [hidle] using attempted_of_moves hrun c hc
  have hinOrder : counts .started (p.history ms) <+: counts .accepted (p.history ms) :=
    ⟨_, hfifo.symm⟩
  refine ⟨?_, hinOrder, hattempted, ?_, ?_⟩
  · rw [List.perm_iff_count]
    intro c
    have hcount := hperm.count_eq c
    rw [hfifo]
    simp only [List.count_append] at hcount ⊢
    omega
  · exact fun c _ hc hattempt => hc (hinOrder.subset (hattempted c hattempt))
  · intro hover
    have hfinished := horderly.returns hover
    have hqueue := horderly.emptied (.inr hfinished)
    have hactive := (horderly.joined hfinished).1
    rw [held, hfinished, hqueue, List.append_nil, List.append_nil] at hfifo
    rw [underWay, hactive, List.map_nil, List.nil_append, ← hfifo] at hperm
    have hlength := hperm.length_eq
    rw [List.length_append] at hlength
    refine ⟨hperm, ?_, fun hsmall => ?_⟩
    · rw [hstats.1, hstats.2, ← UInt64.ofNat_add, hlength]
    · rw [hstats.1, hstats.2, UInt64.toNat_ofNat_of_lt' (by rw [UInt64.size]; omega),
        UInt64.toNat_ofNat_of_lt' (by rw [UInt64.size]; omega), hlength]

/-- In every run, deliveries are started in the order in which the queue took their word counts, and
only those are ever offered to the sink, so none that was refused. If there is room for the slots,
the word counts that the queue has taken are, in every state, those that are queued, held by the
dispatcher, being delivered, delivered and failed, each as often as it was taken; once the run is
over all have been delivered or have failed, and the totals of the two make up their number. If
there is no room for the slots nothing is ever offered, and once the run is over the queue has been
given up. So nothing is lost just when there is room for the slots or nothing was taken. -/
theorem accepted_conserved [Source ι] (hp : p.Idle) {reason : String} {ms : List Move}
    (hrun : p.makeAll reason ms = some (.ok q)) {es : List Event}
    (hes : p.chronicle reason ms = es) :
    counts .started es <+: counts .accepted es ∧
    (∀ c ∈ counts .attempted es, c ∈ counts .started es) ∧
    (∀ c ∈ counts .refused es, c ∉ counts .accepted es → c ∉ counts .attempted es) ∧
    (p.slots ≤ maxPermits →
      (counts .accepted es).Perm
        (q.queue ++ q.held ++ q.underWay ++ counts .delivered es ++ counts .failed es) ∧
      (q.outcome? ≠ none →
        q.stats.delivered + q.stats.failed = UInt64.ofNat (counts .accepted es).length ∧
        ((counts .accepted es).length < 2 ^ 64 →
          q.stats.delivered.toNat + q.stats.failed.toNat = (counts .accepted es).length))) ∧
    (maxPermits < p.slots →
      counts .attempted es = [] ∧ counts .delivered es = [] ∧ counts .failed es = [] ∧
      (q.outcome? ≠ none → q.queue = [] ∧ q.failure = some (.taskFailed reason))) ∧
    (q.outcome? ≠ none →
      ((counts .accepted es).Perm (counts .delivered es ++ counts .failed es) ↔
        p.slots ≤ maxPermits ∨ counts .accepted es = [])) := by
  rcases Nat.lt_or_ge maxPermits p.slots with hslots | hslots
  · obtain ⟨hbarren, -, hnothing⟩ := barren_of_makeAll hslots (hp.barren reason) hrun
    rw [hes] at hnothing
    have hstarted := hnothing .started rfl
    have hattempted := hnothing .attempted rfl
    have hdelivered := hnothing .delivered rfl
    have hfailed := hnothing .failed rfl
    rw [hstarted, hattempted, hdelivered, hfailed]
    refine ⟨List.nil_prefix, by simp, by simp, fun hroom => absurd hroom (Nat.not_le.2 hslots),
      fun _ => ⟨rfl, rfl, rfl, fun hover => ?_⟩, fun _ => ?_⟩
    · obtain ⟨outcome, houtcome⟩ := Option.ne_none_iff_exists'.1 hover
      have hdone := (hbarren.outcome outcome houtcome).1
      rcases hbarren.phase with ⟨hserving, -⟩ | ⟨-, hqueue, hfailure⟩
      · rw [hserving] at hdone
        cases hdone
      · exact ⟨hqueue, hfailure⟩
    · rw [List.append_nil, List.perm_nil]
      exact ⟨.inr, fun h => h.resolve_left (Nat.not_le.2 hslots)⟩
  · obtain ⟨hmoves, hhistory⟩ := moves_of_makeAll hslots hrun
    rw [hes] at hhistory
    obtain ⟨hin, hinOrder, hattempted, hrefused, hends⟩ := conserved_of_moves hp.toFresh hmoves
    rw [← hhistory] at hin hinOrder hattempted hrefused hends
    exact ⟨hinOrder, hattempted, hrefused, fun _ => ⟨hin, fun hover => (hends hover).2⟩,
      fun hnone => absurd hslots (Nat.not_le.2 hnone),
      fun hover => iff_of_true (hends hover).1 (.inl hslots)⟩

/-! ## A run in which a delivery fails -/

/-- A pipeline that has not run yet. -/
def atRest (a : Aggregator) (source : ι) (sink : σ) : Pipeline ι σ :=
  { aggregator := a, source := source, sink := sink }

/-- Settings without retries, with room for one word count in the queue and one delivery at a
time. -/
def tightSettings : ProcessingSettings :=
  { delivery := { maxRetries := 0, maxInFlight := 1, bufferSize := 1 } }

/-- The aggregator of these settings. -/
def tightAggregator : Aggregator :=
  { settings := tightSettings
    windows := ⟨5000, 5000, by decide, by decide⟩
    tally := { store := "WordCounts" }
    frontier := Frontier.make 0 0 }

/-- A pipeline with one record, `a b c d`, of which the sink never takes the `a`. -/
def stuckFirst : Pipeline ListSource MemorySink :=
  atRest tightAggregator { records := [⟨0, [97, 32, 98, 32, 99, 32, 100], none⟩] }
    { failures := [⟨"a", "0_5000", FailureBudget.always⟩] }

/-- An order of its steps in which the failure of `a` is collected before `d` is queued. -/
def closedEarly : List Turn :=
  List.replicate 9 .read ++
    [.read, .dispatch, .dispatch, .read, .dispatch, .read, .offer 0, .dispatch, .collect 0, .read,
      .dispatch, .offer 0, .dispatch, .offer 0, .dispatch, .collect 0, .collect 0, .dispatch, .read]

/-- The theorem for a run that is over, in which one word count was refused. -/
theorem accepted_conserved_closed_early :
    ∃ q, stuckFirst.makeAll "" (closedEarly.map .turn) = some (.ok q) ∧ q.outcome? ≠ none ∧
      (counts .refused (stuckFirst.chronicle "" (closedEarly.map .turn))).map (·.word) = ["d"] ∧
      (counts .accepted (stuckFirst.chronicle "" (closedEarly.map .turn))).Perm
        (counts .delivered (stuckFirst.chronicle "" (closedEarly.map .turn)) ++
          counts .failed (stuckFirst.chronicle "" (closedEarly.map .turn))) := by
  have hend : (stuckFirst.makeAll "" (closedEarly.map .turn)).bind
      (·.toOption.map fun q => q.outcome?.isSome) = some true := by
    decide +kernel
  obtain ⟨q, hrun, hover⟩ := exists_of_answer hend
  rw [Option.isSome_iff_ne_none] at hover
  refine ⟨q, hrun, hover, by decide +kernel, ?_⟩
  obtain ⟨-, -, -, -, -, hall⟩ :=
    accepted_conserved ⟨⟨rfl, rfl, rfl, rfl, rfl, rfl⟩, rfl, rfl, rfl⟩ hrun rfl
  exact (hall hover).2 (.inl (by decide))

/-- Settings with as many slots as can be asked for. -/
def boundless : ProcessingSettings := { delivery := { maxInFlight := 0xffffffffffffffff } }

/-- A pipeline with these settings that reads `a` and then a word of the next window. -/
def overstaffed : Pipeline ListSource MemorySink :=
  atRest { tightAggregator with settings := boundless }
    { records := [⟨0, [97], none⟩, ⟨5000, [98], none⟩] } {}

/-- An order of its turns in which `a` and `b` are queued before the dispatcher takes a turn. -/
def queuedFirst : List Turn := List.replicate 16 .read ++ [.dispatch, .read]

/-- Settings that pass the check let a run lose what the queue has taken: it is neither delivered
nor does it fail. -/
theorem accepted_lost : boundless.check = .ok () ∧
    ∃ q, overstaffed.makeAll "" (queuedFirst.map .turn) = some (.ok q) ∧
      q.outcome? = some (.error (.delivery (.taskFailed ""))) ∧
      (counts .accepted (overstaffed.chronicle "" (queuedFirst.map .turn))).map (·.word) =
        ["a", "b"] ∧
      counts .delivered (overstaffed.chronicle "" (queuedFirst.map .turn)) = [] ∧
      counts .failed (overstaffed.chronicle "" (queuedFirst.map .turn)) = [] := by
  have hend : (overstaffed.makeAll "" (queuedFirst.map .turn)).bind
      (·.toOption.map (·.outcome?)) = some (some (.error (.delivery (.taskFailed "")))) := by
    decide +kernel
  obtain ⟨q, hrun, hover⟩ := exists_of_answer hend
  exact ⟨by decide +kernel, q, hrun, hover, by decide +kernel, by decide +kernel,
    by decide +kernel⟩

end WindowTally.Pipeline
