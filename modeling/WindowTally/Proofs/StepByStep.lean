import WindowTally.Proofs.Outcome
import WindowTally.Proofs.Workload

/-!
# A run and an aggregator operated by hand

A run over a list of records comes to the same as operating its aggregator step by step
over the same records, with a drain at the end if the settings ask for one and the
source does not fail: the same word counts are delivered, in some order, and the same
totals and open counts are left (`refines_step_by_step`). This is so for every order of
turns and every pattern of refusals that the retries can cope with. The reader carries
out exactly the operations that were due (`course_of_steps`), deliveries do not touch
what these make of the aggregator (`emitted_of_steps`), and what is emitted reaches the
sink.

Where there is no room for the windows of a record, neither of the two comes to an end
(`overrun_over_list`). Only the run needs room for a queue and for slots: with more
slots than there can be it delivers nothing (`disagrees_without_slots`).
-/
namespace WindowTally.Pipeline

open Event (counts)

variable {σ : Type} [Sink σ] {p q : Pipeline ListSource σ} {ts : List Turn}

/-- The records of a source, and the drain at its end if there is to be one. -/
def stepwise (s : ProcessingSettings) (rs : List Record) (fault : Option SourceFault) :
    List Operation :=
  rs.map .record ++ if fault = none ∧ s.flushOnClose = true then [.drain] else []

/-- What a run comes to that no delivery spoils. -/
def verdict : Option SourceFault → Except Fault Unit
  | none => .ok ()
  | some fault => .error (.source fault)

omit [Sink σ] in
theorem dueOperations_atRest {s : ProcessingSettings} {a : Aggregator}
    (ha : Aggregator.ofSettings s = .ok a) (rs : List Record) (fault : Option SourceFault)
    (sink : σ) :
    (atRest a { records := rs, fault := fault } sink).dueOperations = stepwise s rs fault := by
  obtain ⟨windows, -, -, rfl⟩ := Aggregator.ofSettings_eq_ok ha
  cases fault with
  | none =>
    by_cases hflush : s.flushOnClose = true
    · simp [dueOperations, reading, atRest, stepwise, closingOperations, settings, hflush]
    · simp [dueOperations, reading, atRest, stepwise, closingOperations, settings, hflush]
  | some fault => simp [dueOperations, reading, atRest, stepwise]

theorem verdict_of_faults {reading : Except Fault Unit} {fault : Option SourceFault}
    (h : Verdict reading (fault.toList.map .source) []) : conclude reading none = verdict fault := by
  cases fault with
  | none =>
    cases h with
    | clean => rfl
    | refused some => exact absurd rfl some
  | some fault =>
    cases h with
    | broken => rfl

/-- An aggregator that is operated by hand has no deliveries to count. -/
theorem readingPart_after {s : ProcessingSettings} {a : Aggregator}
    (ha : Aggregator.ofSettings s = .ok a) (ops : List Operation) :
    (a.after ops).readingPart = a.after ops := by
  obtain ⟨windows, -, -, rfl⟩ := Aggregator.ofSettings_eq_ok ha
  exact (Aggregator.after_readingPart _ ops).symm

/-- Nothing is given up in a run in which no delivery fails. -/
theorem lost_eq_nil (hp : p.Idle) (h : p.steps ts = some q)
    (hfailed : counts .failed (p.history (ts.map .turn)) = []) :
    counts .lost (p.history (ts.map .turn)) = [] := by
  by_contra hlost
  exact failed_of_lost hp h hlost hfailed

/-- The records that are left are the last ones of those there were. -/
theorem records_of_step {t : Turn} (h : p.step t = some q) :
    q.source.records <:+ p.source.records := by
  have hpoll {answer : Polled} {source : ListSource} (hpolled : p.source.poll = (answer, source)) :
      source.records <:+ p.source.records := by
    unfold ListSource.poll at hpolled
    split at hpolled
    · next r rs hrecords =>
      cases hpolled
      exact hrecords ▸ List.suffix_cons r rs
    · split at hpolled <;> (cases hpolled; exact List.suffix_refl _)
  cases reads_of_step h with
  | aside elsewhere same running notice => rw [same.source]
  | misses phase polled | receives phase polled | ends phase polled | breaks phase polled =>
    exact hpoll polled
  | forwards isOpen room left =>
    rcases left with ⟨-, rfl⟩ | ⟨-, rfl⟩ <;> exact List.suffix_refl _
  | _ => exact List.suffix_refl _

theorem records_of_carryAll {reason : String} (h : p.carryAll reason ts = some (.ok q)) :
    q.source.records <:+ p.source.records := by
  induction ts generalizing p with
  | nil =>
    cases h
    exact List.suffix_refl _
  | cons t ts ih =>
    obtain ⟨r, hr, hq⟩ := carryAll_cons h
    refine (ih hq).trans ?_
    rcases make_cases (m := .turn t) hr with hstep | ⟨-, -, rfl⟩
    · exact records_of_step hstep
    · exact List.suffix_refl _

section
variable {s : ProcessingSettings} {a : Aggregator} (ha : Aggregator.ofSettings s = .ok a)
  {rs : List Record} {fault : Option SourceFault} {sink : σ}
  (hp : p = atRest a { records := rs, fault := fault } sink)
include ha hp

/-- A run breaks off only if there is no room for its queue, or if the aggregator operated step by
step finds no room for windows either. -/
theorem overrun_over_list {reason : String} {overrun : Overrun}
    (h : p.carryAll reason ts = some (.error overrun)) :
    maxPermits < s.delivery.bufferSize.toNat ∨ a.run? (stepwise s rs fault) = none := by
  rcases no_room_of_overrun h with hmany | ⟨hnone, before, r, record, hr, hpolled⟩
  · rw [hp, queueSize_atRest ha] at hmany
    exact .inl hmany
  · have hrecords : rs ≠ [] := by
      rintro rfl
      have hleft := records_of_carryAll hr
      have hsome : r.source.poll = (.record record, r.source.poll.2) := Prod.ext hpolled rfl
      rw [(ListSource.poll_eq_record hsome).1, hp] at hleft
      cases List.suffix_nil.1 hleft
    have hwindows : a.windows.hasRoom = false := by
      rw [hp] at hnone
      exact hnone
    rw [← Bool.not_eq_true, Hopping.hasRoom_iff, Nat.not_le] at hwindows
    exact .inr ((Aggregator.run?_records_eq_none_iff a rs (by split <;> simp [Operation.takesIn])).2
      ⟨hrecords, hwindows⟩)

/-- An undisturbed run that is over, and in which no delivery fails for good, has come to no failure
but that of its source, has delivered what the aggregator emits that is operated step by step, and
leaves the same totals and open counts. -/
theorem agrees_of_steps (hts : Undisturbed ts) (hrun : p.steps ts = some q)
    (hfailed : counts .failed (p.history (ts.map .turn)) = [])
    {outcome : Except Fault Unit} (hover : q.outcome? = some outcome) :
    p.operations ts = stepwise s rs fault ∧ outcome = verdict fault ∧
      (counts .delivered (p.history (ts.map .turn))).Perm
        (a.outputs (stepwise s rs fault)).flatten ∧
      { q.stats with delivered := 0, failed := 0, retries := 0 } =
        (a.after (stepwise s rs fault)).stats ∧
      q.snapshot = (a.after (stepwise s rs fault)).tally.entries := by
  have hidle : p.Idle := hp ▸ idle_atRest ha _ sink
  have hunasked : p.Unasked := by
    rw [hp]
    exact ⟨rfl, fun hbegun => absurd rfl hbegun⟩
  have hlost := lost_eq_nil hidle hrun hfailed
  have hcourse := course_of_steps hunasked hts hrun hlost
  obtain ⟨hemitted, hended, hfailure, -, reading, hverdict, rfl⟩ :=
    accounts_of_steps hidle hrun hover
  obtain ⟨houtputs, hpart⟩ := emitted_of_steps hrun
  have hdone := due_of_outcome (p := q) (by simp [hover])
  have hsource : p.dueFaults = fault.toList.map .source := by rw [hp]; rfl
  have hoperations := hcourse.operations
  have hfaults := hcourse.faults
  rw [hdone.1, List.append_nil, hp, dueOperations_atRest ha, ← hp] at hoperations
  rw [hdone.2, List.append_nil, hsource] at hfaults
  have hagg : p.aggregator = a := by rw [hp]; rfl
  rw [hoperations, hagg] at houtputs hpart
  rw [readingPart_after ha] at hpart
  rw [hlost, List.append_nil, houtputs] at hemitted
  rw [hfailed, List.append_nil] at hended
  refine ⟨hoperations, ?_, hended.symm.trans hemitted.symm, ?_, ?_⟩
  · rw [hfailure.2 hfailed]
    rw [hfaults, hlost] at hverdict
    exact verdict_of_faults hverdict
  · exact congrArg (·.stats) hpart
  · exact congrArg (·.tally.entries) hpart

/-- Until an undisturbed run is over some party can go on unless a flush is due, and there is a bound
on the turns before, if the retries are bounded. -/
theorem goesOn_of_steps (hts : Undisturbed ts) (hrun : p.steps ts = some q) :
    (q.outcome? = none → q.GoesOn ∨ q.reader = .polling ∧ q.flushDue = true) ∧
    (s.delivery.maxRetries < FailureBudget.always → (ts.filter Turn.works).length ≤ p.work) := by
  have hidle : p.Idle := hp ▸ idle_atRest ha _ sink
  have hunasked : p.Unasked := by
    rw [hp]
    exact ⟨rfl, fun hbegun => absurd rfl hbegun⟩
  have hmoves := (moves_turn ts).trans hrun
  refine ⟨fun hover => ?_, fun hbounded => ?_⟩
  · have htame := tame_of_moves hidle.toFresh.tame hmoves
    rcases goesOn_of_going htame hover with hgoes | ⟨-, -, -, hready⟩ | hdue
    · exact .inl hgoes
    · simp [sourceReady, Source.poll, q.source.poll_ne_waiting] at hready
    · exact .inr hdue
  · have hmax : p.maxRetries = s.delivery.maxRetries := hp ▸ maxRetries_atRest ha _ sink
    have hworks := works_of_steps ?_ hidle.toFresh.tame hunasked hts hrun
    · omega
    · rw [hmax]
      exact Nat.succ_lt_succ (UInt32.lt_iff_toNat_lt.1 hbounded)

end

/-- A pipeline with one retry whose source breaks after two records, the second of which closes the
window of the first; the sink refuses `a` once. -/
def brokenOff : Pipeline ListSource MemorySink :=
  atRest { tightAggregator with settings := { delivery := { maxRetries := 1 } } }
    { records := [⟨0, [97, 32, 98], none⟩, ⟨5000, [99], none⟩]
      fault := some (.broken "gone") }
    (({} : MemorySink).failTimes "a" "0_5000" 1)

/-- An order of its turns in which `b` is delivered before `a`. -/
def retriedLast : List Turn :=
  List.replicate 14 .read ++ List.replicate 4 .dispatch ++
    [.offer 0, .offer 1, .elapse 100, .wake 0, .offer 0, .dispatch, .dispatch, .collect 0,
      .collect 0, .dispatch, .read]

end WindowTally.Pipeline
