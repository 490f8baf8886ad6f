import WindowTally.Pipeline.Limits
import WindowTally.Proofs.Reading

/-!
# Runs within the limits and beyond them

`makeAll` is what moves come to where there may be no room; with no hand-overs by others it
is `carryAll` (`makeAll_turn`).

* With room for the slots, a run that has not broken off is a run of steps, and all that is
  known of these holds of it (`moves_of_makeAll`). With room for the queue and for windows as
  well (`Roomy`) no run breaks off (`carryAll_eq_steps`).
* Without room for the slots nothing is ever started and the sink is left alone
  (`barren_of_makeAll`). Once such a run is over, the queue has been given up, and what the
  run comes to is never that all is well (`Barren.outcome`, `conclude_ne_ok`).
* Without room for the queue no run begins (`idle_of_makeAll`).
* What a run breaks off for is something that there is no room for (`overrun_of_carryAll`).
-/
namespace WindowTally

/-- Whether something that can happen to a word count is done by its delivery. -/
def Stage.ofDelivery : Stage → Bool
  | .started | .attempted | .delivered | .failed => true
  | _ => false

namespace Pipeline

open Event (counts)

variable {ι σ : Type} [Source ι] [Sink σ] {p q r : Pipeline ι σ} {reason : String} {m : Move}
  {ms : List Move} {t : Turn} {ts : List Turn}

/-- What a move comes to, if it can be made. Nothing is handed in before the run has begun. -/
def make (reason : String) (p : Pipeline ι σ) : Move → Option (Except Overrun (Pipeline ι σ))
  | .turn t => p.carry reason t
  | .hand c => if p.reader matches .idle then none else (p.move (.hand c)).map .ok

/-- What several moves come to, if each can be made until the run breaks off. -/
def makeAll (reason : String) (p : Pipeline ι σ) :
    List Move → Option (Except Overrun (Pipeline ι σ))
  | [] => some (.ok p)
  | m :: ms =>
    match p.make reason m with
    | some (.ok q) => q.makeAll reason ms
    | some (.error overrun) => some (.error overrun)
    | none => none

/-- What happens in a run until it breaks off. -/
def chronicle (reason : String) (p : Pipeline ι σ) : List Move → List Event
  | [] => []
  | m :: ms =>
    match p.make reason m with
    | some (.ok q) => p.events m ++ q.chronicle reason ms
    | _ => []

theorem makeAll_turn (reason : String) (p : Pipeline ι σ) (ts : List Turn) :
    p.makeAll reason (ts.map .turn) = p.carryAll reason ts := by
  induction ts generalizing p with
  | nil => rfl
  | cons t ts ih =>
    simp only [List.map_cons, makeAll, make, carryAll]
    cases p.carry reason t with
    | none => rfl
    | some answer =>
      cases answer with
      | ok q => exact ih q
      | error overrun => rfl

theorem makeAll_cons (h : p.makeAll reason (m :: ms) = some (.ok r)) :
    ∃ q, p.make reason m = some (.ok q) ∧ q.makeAll reason ms = some (.ok r) ∧
      p.chronicle reason (m :: ms) = p.events m ++ q.chronicle reason ms := by
  rw [makeAll] at h
  split at h
  · next q hq => exact ⟨q, hq, h, by rw [chronicle, hq]⟩
  · cases h
  · cases h

theorem carryAll_cons (h : p.carryAll reason (t :: ts) = some (.ok r)) :
    ∃ q, p.carry reason t = some (.ok q) ∧ q.carryAll reason ts = some (.ok r) := by
  rw [carryAll] at h
  split at h
  · next q hq => exact ⟨q, hq, h⟩
  · cases h
  · cases h

omit [Source ι] [Sink σ] in
/-- What can be told of the end of a run is told of a state at its end. -/
theorem exists_of_answer {run : Option (Except Overrun (Pipeline ι σ))} {α : Type}
    {look : Pipeline ι σ → α} {x : α}
    (h : (run.bind fun answer => answer.toOption.map look) = some x) :
    ∃ q, run = some (.ok q) ∧ look q = x := by
  obtain ⟨answer, hrun, hlook⟩ := Option.bind_eq_some_iff.1 h
  cases answer with
  | error overrun => cases hlook
  | ok q => exact ⟨q, hrun, Option.some.inj hlook⟩

/-! ## One move -/

/-- What a move comes to is what its step comes to, unless the dispatcher breaks down in it. -/
theorem make_cases (h : p.make reason m = some (.ok q)) :
    p.move m = some q ∨
      m = .turn .dispatch ∧ p.overcommitted = true ∧ q = p.breakDown reason := by
  have hmap {o : Option (Pipeline ι σ)}
      (ho : o.map (Except.ok (ε := Overrun)) = some (.ok q)) : o = some q := by
    obtain ⟨q', hq', hok⟩ := Option.map_eq_some_iff.1 ho
    cases hok
    exact hq'
  cases m with
  | hand c =>
    simp only [make] at h
    split at h
    · cases h
    · exact .inl (hmap h)
  | turn t =>
    cases t with
    | read =>
      obtain ⟨q', hq', hok⟩ := Option.map_eq_some_iff.1 h
      split at hok
      · cases hok
      · cases hok
        exact .inl hq'
    | dispatch =>
      simp only [make, carry] at h
      split at h
      · next hover =>
        cases h
        exact .inr ⟨rfl, hover, rfl⟩
      · exact .inl (hmap h)
    | _ => exact .inl (hmap h)

omit [Source ι] [Sink σ] in
theorem overcommitted_eq_false (hslots : p.slots ≤ maxPermits) : p.overcommitted = false := by
  unfold overcommitted
  split
  · rfl
  · exact decide_eq_false (Nat.not_lt.2 hslots)
  · rfl

theorem move_of_make (hslots : p.slots ≤ maxPermits) (h : p.make reason m = some (.ok q)) :
    p.move m = some q := by
  rcases make_cases h with hmove | ⟨-, hover, -⟩
  · exact hmove
  · rw [overcommitted_eq_false hslots] at hover
    cases hover

/-- With room for the slots, a party can take its turn just when it can take its step. -/
theorem carry_eq_none_iff (hslots : p.slots ≤ maxPermits) :
    p.carry reason t = none ↔ p.step t = none := by
  cases t with
  | read => exact Option.map_eq_none_iff
  | dispatch =>
    rw [carry, overcommitted_eq_false hslots]
    exact Option.map_eq_none_iff
  | _ => rw [carry, Option.map_eq_none_iff] <;> simp

theorem settings_of_make (h : p.make reason m = some (.ok q)) : q.settings = p.settings := by
  rcases make_cases h with hmove | ⟨-, -, rfl⟩
  · exact settings_of_advance (advance_of_move hmove)
  · rfl

theorem slots_of_make (h : p.make reason m = some (.ok q)) : q.slots = p.slots := by
  rw [slots, slots, settings_of_make h]

theorem windows_of_make (h : p.make reason m = some (.ok q)) :
    q.aggregator.windows = p.aggregator.windows := by
  rcases make_cases h with hmove | ⟨-, -, rfl⟩
  · exact windows_of_advance (advance_of_move hmove)
  · rfl

/-- What no move changes holds at the end if it holds at the start. -/
theorem of_makeAll {P : Pipeline ι σ → Prop}
    (hmake : ∀ {p q : Pipeline ι σ} {m : Move}, P p → p.make reason m = some (.ok q) → P q)
    (hp : P p) (h : p.makeAll reason ms = some (.ok q)) : P q := by
  induction ms generalizing p with
  | nil =>
    cases h
    exact hp
  | cons m ms ih =>
    obtain ⟨r, hr, hq, -⟩ := makeAll_cons h
    exact ih (hmake hp hr) hq

theorem settings_of_makeAll (h : p.makeAll reason ms = some (.ok q)) : q.settings = p.settings :=
  of_makeAll (P := fun r => r.settings = p.settings)
    (fun hr hq => (settings_of_make hq).trans hr) rfl h

theorem slots_of_makeAll (h : p.makeAll reason ms = some (.ok q)) : q.slots = p.slots := by
  rw [slots, slots, settings_of_makeAll h]

theorem windows_of_makeAll (h : p.makeAll reason ms = some (.ok q)) :
    q.aggregator.windows = p.aggregator.windows :=
  of_makeAll (P := fun r => r.aggregator.windows = p.aggregator.windows)
    (fun hr hq => (windows_of_make hq).trans hr) rfl h

/-! ## Within the limits -/

/-- There is room for all that the settings ask for. -/
structure Roomy (p : Pipeline ι σ) : Prop where
  queue : p.queueSize ≤ maxPermits
  slots : p.slots ≤ maxPermits
  windows : p.aggregator.windows.hasRoom = true

omit [Source ι] [Sink σ] in
theorem isSome_ingest? {a : Aggregator} {r : Record} :
    (a.ingest? r).isSome = a.windows.hasRoom := by
  rw [Aggregator.ingest?, Option.isSome_map, Hopping.assign?]
  split <;> simp_all

omit [Sink σ] in
theorem Roomy.overrun?_eq_none (hp : p.Roomy) : p.overrun? = none := by
  unfold overrun?
  split
  · exact if_pos hp.queue
  · split
    · exact if_pos (isSome_ingest?.trans hp.windows)
    · rfl
  · rfl

theorem Roomy.carry_eq_step (hp : p.Roomy) (reason : String) (t : Turn) :
    p.carry reason t = (p.step t).map .ok := by
  cases t with
  | read => simp only [carry, hp.overrun?_eq_none, step]
  | dispatch => rw [carry, overcommitted_eq_false hp.slots]; rfl
  | _ => rfl

theorem Roomy.of_step (hp : p.Roomy) (h : p.step t = some q) : q.Roomy := by
  have hadvance := advance_of_move (m := .turn t) h
  have hsettings := settings_of_advance hadvance
  refine ⟨?_, ?_, ?_⟩
  · rw [queueSize, hsettings]
    exact hp.queue
  · rw [Pipeline.slots, hsettings]
    exact hp.slots
  · rw [windows_of_advance hadvance]
    exact hp.windows

/-- With room for everything, turns come to just what the steps come to. -/
theorem carryAll_eq_steps (hp : p.Roomy) (reason : String) (ts : List Turn) :
    p.carryAll reason ts = (p.steps ts).map .ok := by
  induction ts generalizing p with
  | nil => rfl
  | cons t ts ih =>
    rw [carryAll, hp.carry_eq_step, steps]
    cases hstep : p.step t with
    | none => rfl
    | some q => exact ih (hp.of_step hstep)

/-- With room for the slots, a run that has not broken off is a run of steps. -/
theorem moves_of_makeAll (hslots : p.slots ≤ maxPermits)
    (h : p.makeAll reason ms = some (.ok q)) :
    p.moves ms = some q ∧ p.chronicle reason ms = p.history ms := by
  induction ms generalizing p with
  | nil =>
    cases h
    exact ⟨rfl, rfl⟩
  | cons m ms ih =>
    obtain ⟨r, hr, hq, hchronicle⟩ := makeAll_cons h
    have hmove := move_of_make hslots hr
    obtain ⟨hmoves, hhistory⟩ := ih (slots_of_make hr ▸ hslots) hq
    refine ⟨by rw [moves, hmove, Option.bind_some, hmoves], ?_⟩
    rw [hchronicle, history, hmove, hhistory]

theorem steps_of_carryAll (hslots : p.slots ≤ maxPermits)
    (h : p.carryAll reason ts = some (.ok q)) :
    p.steps ts = some q ∧ p.chronicle reason (ts.map .turn) = p.history (ts.map .turn) := by
  rw [← makeAll_turn] at h
  rw [← moves_turn]
  exact moves_of_makeAll hslots h

/-- With room for the slots, what can be taken step by step comes to the same, unless the run breaks
off. -/
theorem carryAll_of_steps (reason : String) (hslots : p.slots ≤ maxPermits) (h : p.steps ts = some q) :
    p.carryAll reason ts = some (.ok q) ∨
      ∃ overrun, p.carryAll reason ts = some (.error overrun) := by
  induction ts generalizing p with
  | nil =>
    cases h
    exact .inl rfl
  | cons t ts ih =>
    obtain ⟨r, hr, hq, -⟩ := steps_cons h
    rw [carryAll]
    split
    · next r' hr' =>
      have hstep : p.step t = some r' := move_of_make (m := .turn t) hslots hr'
      rw [hr, Option.some_inj] at hstep
      subst hstep
      exact ih (slots_of_make (m := .turn t) hr' ▸ hslots) hq
    · next overrun _ => exact .inr ⟨overrun, rfl⟩
    · next hnone =>
      rw [(carry_eq_none_iff hslots).1 hnone] at hr
      cases hr

/-! ## Breaking off -/

/-- A run breaks off in a turn of the reader, for what it then finds no room for. -/
theorem overrun_of_carryAll {overrun : Overrun}
    (h : p.carryAll reason ts = some (.error overrun)) :
    ∃ before q, p.carryAll reason before = some (.ok q) ∧ q.overrun? = some overrun := by
  induction ts generalizing p with
  | nil => cases h
  | cons t ts ih =>
    rw [carryAll] at h
    split at h
    · next r hr =>
      obtain ⟨before, q, hq, hover⟩ := ih h
      refine ⟨t :: before, q, ?_, hover⟩
      rw [carryAll, hr]
      exact hq
    · next overrun' hr =>
      cases h
      refine ⟨[], p, rfl, ?_⟩
      cases t with
      | read =>
        obtain ⟨q, -, hend⟩ := Option.map_eq_some_iff.1 hr
        split at hend
        · next overrun' hover =>
          cases hend
          exact hover
        · cases hend
      | dispatch =>
        simp only [carry] at hr
        split at hr
        · cases hr
        · simp at hr
      | _ => simp [carry] at hr
    · cases h

/-- A run breaks off only if there is no room for its queue, or none for the windows of a record that
its source yields. -/
theorem no_room_of_overrun {overrun : Overrun} (h : p.carryAll reason ts = some (.error overrun)) :
    maxPermits < p.queueSize ∨ p.aggregator.windows.hasRoom = false ∧
      ∃ before q record, p.carryAll reason before = some (.ok q) ∧
        (Source.poll q.source).1 = .record record := by
  obtain ⟨before, q, hq, hover⟩ := overrun_of_carryAll h
  have hmakes := (makeAll_turn reason p before).trans hq
  unfold overrun? at hover
  split at hover
  · split at hover
    · cases hover
    · next hmany =>
      rw [queueSize, settings_of_makeAll hmakes] at hmany
      exact .inl (Nat.not_le.1 hmany)
  · split at hover
    · next record hpolled =>
      split at hover
      · cases hover
      · next hnone =>
        rw [isSome_ingest?, windows_of_makeAll hmakes, Bool.not_eq_true] at hnone
        exact .inr ⟨hnone, before, q, record, hq, hpolled⟩
    · cases hover
  · cases hover

/-- With room for the slots, a run that steps bring to its end is brought there or breaks off. -/
theorem ends_or_overruns (reason : String) (hslots : p.slots ≤ maxPermits)
    (h : p.steps ts = some q) (hover : q.outcome? ≠ none) :
    ∃ answer, p.carryAll reason ts = some answer ∧
      (∀ r, answer = .ok r → r.outcome? ≠ none) ∧
      ∀ overrun, answer = .error overrun →
        maxPermits < p.queueSize ∨ p.aggregator.windows.hasRoom = false := by
  rcases carryAll_of_steps reason hslots h with hok | ⟨overrun, herror⟩
  · refine ⟨_, hok, fun r hr => ?_, fun overrun hr => ?_⟩
    · cases hr
      exact hover
    · cases hr
  · refine ⟨_, herror, fun r hr => ?_, fun _ _ => (no_room_of_overrun herror).imp_right And.left⟩
    cases hr

/-- Only where there is room for its windows is a record taken in. -/
theorem hasRoom_of_carry (h : p.carry reason t = some (.ok q)) {record : Record}
    (hop : p.operation? t = some (.record record)) : p.aggregator.windows.hasRoom = true := by
  cases t with
  | read =>
    obtain ⟨q', -, hend⟩ := Option.map_eq_some_iff.1 h
    have hpolled : p.reader = .polling ∧ (Source.poll p.source).1 = .record record := by
      simp only [operation?] at hop
      split at hop
      · next hreader =>
        split at hop
        · next hpoll =>
          cases hop
          exact ⟨hreader, hpoll⟩
        · cases hop
      · split at hop <;> cases hop
      · cases hop
    split at hend
    · cases hend
    · next hnone =>
      rw [← isSome_ingest? (r := record)]
      simpa [overrun?, hpolled, Option.isSome_iff_ne_none] using hnone
  | flush now => cases hop
  | _ => cases hop

/-- With room for the slots, a record is taken in only in a run with room for its windows. -/
theorem hasRoom_of_carryAll (hslots : p.slots ≤ maxPermits)
    (h : p.carryAll reason ts = some (.ok q)) {record : Record}
    (hmem : .record record ∈ p.operations ts) : p.aggregator.windows.hasRoom = true := by
  induction ts generalizing p with
  | nil => cases hmem
  | cons t ts ih =>
    obtain ⟨r, hr, hq⟩ := carryAll_cons h
    have hstep : p.step t = some r := move_of_make (m := .turn t) hslots hr
    rw [operations, log_cons _ hstep, List.mem_append] at hmem
    rcases hmem with hfirst | hrest
    · exact hasRoom_of_carry hr (Option.mem_toList.1 hfirst)
    · rw [← windows_of_make (m := .turn t) hr]
      exact ih (slots_of_make (m := .turn t) hr ▸ hslots) hq hrest

/-- Without room for the queue no run begins. -/
theorem idle_of_makeAll (hqueue : maxPermits < p.queueSize) (hp : p.reader = .idle)
    (h : p.makeAll reason ms = some (.ok q)) : q.reader = .idle := by
  refine (of_makeAll (P := fun r => maxPermits < r.queueSize ∧ r.reader = .idle)
    (fun {r r' m} hr hmake => ⟨?_, ?_⟩) ⟨hqueue, hp⟩ h).2
  · rw [queueSize, settings_of_make hmake]
    exact hr.1
  · obtain ⟨hqueue, hidle⟩ := hr
    rcases make_cases hmake with hmove | ⟨-, -, rfl⟩
    · cases m with
      | hand c => simp [make, hidle] at hmake
      | turn t =>
        cases reads_of_step hmove with
        | aside elsewhere same running notice => exact same.reader.trans hidle
        | begins phase => simp [make, carry, read, overrun?, hidle, Nat.not_le.2 hqueue] at hmake
        | forwards isOpen room left =>
          rcases left with ⟨phase, -⟩ | ⟨phase, -⟩ <;> simp [hidle] at phase
        | givesUp isClosed inHand => rcases inHand with phase | phase <;> simp [hidle] at phase
        | finishes phase => rcases phase with ⟨phase, -⟩ | phase <;> simp [hidle] at phase
        | checks phase | heeds phase | proceeds phase | misses phase | receives phase | ends phase
        | breaks phase | flushes phase | goesOn phase | drains phase | returns phase =>
          simp [hidle] at phase
    · exact hidle

/-! ## Too many slots -/

/-- What a pipeline is like whose dispatcher cannot make its slots: no delivery runs, and the
dispatcher has not taken a turn yet or has broken down. -/
structure Barren (reason : String) (p : Pipeline ι σ) : Prop where
  active : p.active = []
  settled : p.settled = []
  phase : p.dispatcher = .serving ∧ p.failure = none ∨
    p.dispatcher = .finished ∧ p.queue = [] ∧ p.failure = some (.taskFailed reason)
  /-- The run is over only once it has broken down, and what it comes to then takes that into
  account. -/
  outcome : ∀ outcome, p.outcome? = some outcome → p.dispatcher = .finished ∧
    ∃ reading, outcome = conclude reading (some (.taskFailed reason))

/-- What deliveries could change is the same in both. -/
structure Undelivered (p q : Pipeline ι σ) : Prop where
  sink : q.sink = p.sink
  delivered : q.stats.delivered = p.stats.delivered
  failed : q.stats.failed = p.stats.failed
  retries : q.stats.retries = p.stats.retries

omit [Source ι] [Sink σ] in
theorem Undelivered.trans (hpq : Undelivered p q) (hqr : Undelivered q r) : Undelivered p r :=
  ⟨hqr.sink.trans hpq.sink, hqr.delivered.trans hpq.delivered, hqr.failed.trans hpq.failed,
    hqr.retries.trans hpq.retries⟩

omit [Source ι] [Sink σ] in
theorem undelivered_of_aggregator (hsink : q.sink = p.sink)
    (haggregator : q.aggregator = p.aggregator) : Undelivered p q := by
  refine ⟨hsink, ?_, ?_, ?_⟩ <;> rw [stats, haggregator] <;> rfl

omit [Source ι] [Sink σ] in
theorem undelivered_of_operate {op : Operation} (hsink : q.sink = p.sink)
    (haggregator : q.aggregator = (p.aggregator.operate op).2) : Undelivered p q := by
  refine ⟨hsink, ?_, ?_, ?_⟩ <;> rw [stats, haggregator] <;>
    simp [stats, Aggregator.stats_operate, Aggregator.countedStats]

omit [Source ι] [Sink σ] in
/-- A broken dispatcher never leaves a run with nothing to report. -/
theorem conclude_ne_ok (reading : Except Fault Unit) (fault : DeliveryFault) :
    conclude reading (some fault) ≠ .ok () := by
  unfold conclude
  split <;> simp_all

omit [Source ι] [Sink σ] in
theorem Barren.ne_ok (hp : p.Barren reason) : p.outcome? ≠ some (.ok ()) := by
  intro hover
  obtain ⟨-, reading, hok⟩ := hp.outcome _ hover
  exact conclude_ne_ok reading _ hok.symm

omit [Source ι] [Sink σ] in
/-- Where the delivering side stays as it is, it stays barren. -/
theorem Barren.keeps (hp : p.Barren reason) (hdispatcher : q.dispatcher = p.dispatcher)
    (hactive : q.active = p.active) (hsettled : q.settled = p.settled)
    (hfailure : q.failure = p.failure) (hqueue : q.queue = p.queue ∨ p.queueClosed = false)
    (houtcome : q.outcome? = none ∨ q.outcome? = p.outcome?) : q.Barren reason := by
  refine ⟨hactive.trans hp.active, hsettled.trans hp.settled, ?_, fun outcome hover => ?_⟩
  · rw [hdispatcher, hfailure]
    refine hp.phase.imp_right fun ⟨hphase, hempty, hbroken⟩ => ⟨hphase, ?_, hbroken⟩
    rcases hqueue with hqueue | hopen
    · exact hqueue.trans hempty
    · simp [queueClosed, hphase] at hopen
  · rcases houtcome with hnone | hsame
    · rw [hnone] at hover
      cases hover
    · rw [hdispatcher]
      exact hp.outcome outcome (hsame ▸ hover)

omit [Sink σ] in
theorem barren_of_read (hp : p.Barren reason) (h : p.read = some q) :
    q.Barren reason ∧ Undelivered p q := by
  cases reads_of_read h with
  | aside elsewhere same running notice => exact absurd rfl elsewhere.1
  | begins phase | heeds phase asked | proceeds phase unasked | misses phase polled
  | ends phase polled | breaks phase polled | goesOn phase =>
    exact ⟨hp.keeps rfl rfl rfl rfl (.inl rfl) (.inl rfl), undelivered_of_aggregator rfl rfl⟩
  | checks phase =>
    refine ⟨hp.keeps rfl rfl rfl rfl (.inl rfl) (.inl ?_), undelivered_of_aggregator rfl rfl⟩
    rw [outcome?]
    cases p.running <;> rfl
  | receives phase polled =>
    exact ⟨hp.keeps rfl rfl rfl rfl (.inl rfl) (.inl rfl), undelivered_of_operate rfl rfl⟩
  | forwards isOpen room left =>
    refine ⟨hp.keeps rfl rfl rfl rfl (.inr isOpen) (.inl ?_), undelivered_of_aggregator rfl rfl⟩
    rcases left with ⟨-, rfl⟩ | ⟨-, rfl⟩ <;> rfl
  | givesUp isClosed inHand =>
    exact ⟨hp.keeps rfl rfl rfl rfl (.inl rfl) (.inl rfl), undelivered_of_aggregator rfl rfl⟩
  | drains phase asked =>
    exact ⟨hp.keeps rfl rfl rfl rfl (.inl rfl) (.inl rfl), undelivered_of_operate rfl rfl⟩
  | finishes phase =>
    exact ⟨hp.keeps rfl rfl rfl rfl (.inl rfl) (.inl rfl), undelivered_of_aggregator rfl rfl⟩
  | @returns reading phase done =>
    have hbroken : p.failure = some (.taskFailed reason) := by
      rcases hp.phase with ⟨hserving, -⟩ | ⟨-, -, hbroken⟩
      · rw [hserving] at done
        cases done
      · exact hbroken
    refine ⟨⟨hp.active, hp.settled, hp.phase, fun outcome hover => ?_⟩,
      undelivered_of_aggregator rfl rfl⟩
    cases hover
    exact ⟨done, reading, by rw [hbroken]⟩

theorem counts_events_read {stage : Stage} (hstage : stage.ofDelivery = true)
    (p : Pipeline ι σ) : counts stage (p.events (.turn .read)) = [] := by
  rw [events_read, Event.counts_append, Event.counts_each]
  cases stage with
  | started | attempted | delivered | failed =>
    rw [if_neg (by simp), counts_forwarded (by simp), List.append_nil]
  | _ => cases hstage

omit [Source ι] [Sink σ] in
theorem counts_handed_of_delivery {stage : Stage} (hstage : stage.ofDelivery = true)
    (p : Pipeline ι σ) (c : WordCount) : counts stage (p.handed c) = [] := by
  refine counts_handed ⟨?_, ?_⟩ p c <;> (rintro rfl; cases hstage)

theorem barren_of_dispatch (hslots : maxPermits < p.slots) (hp : p.Barren reason)
    (h : p.carry reason .dispatch = some (.ok q)) : q.Barren reason ∧ Undelivered p q := by
  simp only [carry] at h
  split at h
  · next hover =>
    cases h
    have hgoing : p.outcome? = none := by
      cases hover' : p.outcome? with
      | none => rfl
      | some outcome =>
        rw [overcommitted, (hp.outcome outcome hover').1] at hover
        split at hover <;> simp_all
    refine ⟨⟨hp.active, hp.settled, .inr ⟨rfl, rfl, rfl⟩, fun outcome hover' => ?_⟩,
      undelivered_of_aggregator rfl rfl⟩
    rw [show (p.breakDown reason).outcome? = p.outcome? from rfl, hgoing] at hover'
    cases hover'
  · next hover =>
    -- A begun dispatcher has broken down already, and does not take another turn.
    obtain ⟨q', hstep, -⟩ := Option.map_eq_some_iff.1 h
    simp only [step] at hstep
    split at hstep
    · cases hstep
    · next hbegun =>
      rcases hp.phase with ⟨hserving, -⟩ | ⟨hfinished, -⟩
      · refine absurd ?_ hover
        rw [overcommitted, hserving]
        split <;> simp_all
      · rw [dispatch, hfinished] at hstep
        cases hstep

/-- Without room for the slots a move leaves the deliveries as they are: there are none. -/
theorem barren_of_make (hslots : maxPermits < p.slots) (hp : p.Barren reason)
    (h : p.make reason m = some (.ok q)) : q.Barren reason ∧ Undelivered p q ∧
      ∀ stage, stage.ofDelivery = true → counts stage (p.events m) = [] := by
  have hstep {t : Turn} (ht : t ≠ .dispatch) (h : p.make reason (.turn t) = some (.ok q)) :
      p.step t = some q :=
    (make_cases h).resolve_right fun hbroken => ht (Move.turn.inj hbroken.1)
  have hquiet (haggregator : q.aggregator = p.aggregator) (hsink : q.sink = p.sink)
      (hevents : p.events m = []) (hbarren : q.Barren reason) : q.Barren reason ∧
      Undelivered p q ∧ ∀ stage, stage.ofDelivery = true → counts stage (p.events m) = [] := by
    rw [hevents]
    exact ⟨hbarren, undelivered_of_aggregator hsink haggregator, fun _ _ => rfl⟩
  cases m with
  | hand c =>
    refine and_assoc.1 ⟨?_, fun stage hstage => counts_handed_of_delivery hstage p c⟩
    have hmove := (make_cases h).resolve_right fun hbroken => by cases hbroken.1
    simp only [move] at hmove
    split at hmove
    · cases hmove
    · split at hmove
      · next hq =>
        cases hmove
        obtain ⟨isOpen, -, rfl⟩ := enqueue_eq_ok hq
        exact ⟨hp.keeps rfl rfl rfl rfl (.inr isOpen) (.inr rfl), undelivered_of_aggregator rfl rfl⟩
      · cases hmove
        exact ⟨hp, undelivered_of_aggregator rfl rfl⟩
      · cases hmove
  | turn t =>
    cases t with
    | read =>
      obtain ⟨hbarren, hsame⟩ := barren_of_read hp (hstep (by simp) h)
      exact ⟨hbarren, hsame, fun stage hstage => counts_events_read hstage p⟩
    | flush now =>
      have hflush := hstep (by simp) h
      cases reads_of_step hflush with
      | aside elsewhere same running notice => exact absurd rfl (elsewhere.2 now)
      | flushes phase due =>
        refine ⟨hp.keeps rfl rfl rfl rfl (.inl rfl) (.inl rfl), undelivered_of_operate rfl rfl,
          fun stage hstage => ?_⟩
        rw [events_flush, Event.counts_each, if_neg]
        rintro rfl
        cases hstage
    | dispatch =>
      obtain ⟨hbarren, hsame⟩ := barren_of_dispatch hslots hp h
      have hheld : p.held = [] := by
        rcases hp.phase with ⟨hphase, -⟩ | ⟨hphase, -⟩ <;> rw [held, hphase]
      refine ⟨hbarren, hsame, fun stage _ => ?_⟩
      rw [events_dispatch, hheld]
      rfl
    | collect i =>
      have hcollect := hstep (by simp) h
      simp [step, collect, hp.settled] at hcollect
    | offer i =>
      have hoffer := hstep (by simp) h
      simp [step, offer, hp.active] at hoffer
    | wake i =>
      have hwake := hstep (by simp) h
      simp [step, wake, hp.active] at hwake
    | clearRunning =>
      cases hstep (by simp) h
      exact hquiet rfl rfl rfl (hp.keeps rfl rfl rfl rfl (.inl rfl) (.inr rfl))
    | notify =>
      have hnotify := hstep (by simp) h
      simp only [step] at hnotify
      split at hnotify
      · cases hnotify
      · cases hnotify
        exact hquiet rfl rfl rfl (hp.keeps rfl rfl rfl rfl (.inl rfl) (.inr rfl))
    | elapse ms =>
      cases hstep (by simp) h
      exact hquiet rfl rfl rfl (hp.keeps rfl rfl rfl rfl (.inl rfl) (.inr rfl))

/-- Without room for the slots nothing is ever started, and the sink is left alone. -/
theorem barren_of_makeAll (hslots : maxPermits < p.slots) (hp : p.Barren reason)
    (h : p.makeAll reason ms = some (.ok q)) : q.Barren reason ∧ Undelivered p q ∧
      ∀ stage, stage.ofDelivery = true → counts stage (p.chronicle reason ms) = [] := by
  induction ms generalizing p with
  | nil =>
    cases h
    exact ⟨hp, ⟨rfl, rfl, rfl, rfl⟩, fun _ _ => rfl⟩
  | cons m ms ih =>
    obtain ⟨r, hr, hq, hchronicle⟩ := makeAll_cons h
    obtain ⟨hbarren, hsame, hevents⟩ := barren_of_make hslots hp hr
    obtain ⟨hend, hsame', hrest⟩ := ih (slots_of_make hr ▸ hslots) hbarren hq
    refine ⟨hend, hsame.trans hsame', fun stage hstage => ?_⟩
    rw [hchronicle, Event.counts_append, hevents stage hstage, hrest stage hstage, List.append_nil]

end Pipeline

end WindowTally
