import WindowTally.Proofs.Outcome
import WindowTally.Proofs.Progress

/-!
# How much is on its way

A pipeline keeps only so many word counts between its reader and its sink: those that
are being delivered have a slot each, one more may be held by the dispatcher, and the
rest is queued (`Bounded`). A reader that would go beyond that waits, so a slow sink
slows down reading.

Nor does anything overtake on the way (`bounded_in_order`). What the aggregator emits
is queued in that order up to the point where the reader gives up
(`emitted_in_order`), and deliveries are started in the order of the queue.
-/
namespace WindowTally.Pipeline

open Event (counts each)

variable {ι σ : Type} [Sink σ] {p q r : Pipeline ι σ} {es : List Event}

/-! ## Room -/

/-- The queue holds no more than there is room for, and no more deliveries run than there are
slots. -/
structure Bounded (p : Pipeline ι σ) : Prop where
  queue : p.queue.length ≤ p.queueSize
  active : p.active.length ≤ p.slots

omit [Sink σ] in
/-- The bounds are a matter of the settings, which no move changes. -/
theorem bounded_iff (hsettings : q.settings = p.settings) :
    q.Bounded ↔ q.queue.length ≤ p.queueSize ∧ q.active.length ≤ p.slots := by
  have hsize : q.queueSize = p.queueSize := by rw [queueSize, hsettings, queueSize]
  have hslots : q.slots = p.slots := by rw [slots, hsettings, slots]
  rw [← hsize, ← hslots]
  exact ⟨fun h => ⟨h.queue, h.active⟩, fun h => ⟨h.1, h.2⟩⟩

theorem bounded_of_advance {m : Move} (hp : p.Bounded) (h : Advance p m es q) : q.Bounded := by
  rw [bounded_iff (settings_of_advance h)]
  cases h with
  | rests same aggregator inHand result =>
    rw [same.queue, same.active]
    exact ⟨hp.queue, hp.active⟩
  | forwards isOpen room inHand left =>
    rw [List.length_append]
    exact ⟨room, hp.active⟩
  | takesIn hand isOpen room going =>
    rw [List.length_append]
    exact ⟨room, hp.active⟩
  | takes queue phase =>
    have hqueue := hp.queue
    rw [queue] at hqueue
    exact ⟨Nat.le_of_succ_le hqueue, hp.active⟩
  | starts phase slot =>
    rw [List.length_append]
    exact ⟨hp.queue, slot⟩
  | settles running phase ended =>
    exact ⟨hp.queue, Nat.le_trans (List.length_eraseIdx_le _ _) hp.active⟩
  | retries running phase pauses =>
    rw [List.length_set]
    exact ⟨hp.queue, hp.active⟩
  | wakes running phase due =>
    rw [List.length_set]
    exact ⟨hp.queue, hp.active⟩
  | _ => exact ⟨hp.queue, hp.active⟩

omit [Sink σ] in
theorem Fresh.bounded (hp : p.Fresh) : p.Bounded := by
  refine ⟨?_, ?_⟩
  · rw [hp.queue]
    exact Nat.zero_le _
  · rw [hp.active]
    exact Nat.zero_le _

omit [Sink σ] in
theorem length_held_le (p : Pipeline ι σ) : p.held.length ≤ 1 := by
  unfold held
  split
  · exact Nat.le_refl 1
  · exact Nat.le_refl 1
  · exact Nat.zero_le 1

section
variable [Source ι] {ms : List Move} {t : Turn} {ts : List Turn}

theorem bounded_of_moves (hp : p.Fresh) (h : p.moves ms = some q) : q.Bounded :=
  run_induction (P := fun _ q => q.Bounded) hp.bounded
    (fun _ hr hq => bounded_of_advance hq (advance_of_move hr)) h

/-- What was accepted and has not ended is queued, held or being delivered. -/
theorem accepted_le (hp : p.Fresh) (h : p.moves ms = some q) :
    (counts .accepted (p.history ms)).length ≤
      (counts .delivered (p.history ms)).length + (counts .failed (p.history ms)).length +
        (p.queueSize + 1 + p.slots) := by
  obtain ⟨haccepted, hstarted⟩ := custody_of_moves hp h
  obtain ⟨hqueue, hactive⟩ := (bounded_iff (settings_of_moves h)).1 (bounded_of_moves hp h)
  have hheld := q.length_held_le
  have hlength := hstarted.length_eq
  rw [haccepted]
  simp only [List.length_append, underWay, List.length_map] at hlength ⊢
  omega

/-! ## Order -/

omit [Source ι] in
/-- A reader that has left queues nothing more. -/
theorem accepted_of_gone (hp : p.readerGone = true) (h : Advance p (.turn t) es q) :
    counts .accepted es = [] := by
  cases h with
  | forwards isOpen room inHand left =>
    unfold readerGone at hp
    unfold remaining at inHand
    cases hreader : p.reader with
    | finishing reading => rw [hreader] at inHand; cases inHand
    | returned outcome => rw [hreader] at inHand; cases inHand
    | _ => simp [hreader] at hp
  | takesIn hand isOpen room going => cases hand
  | @settles i d outcome running phase ended => cases outcome <;> simp [ending]
  | _ => simp

/-- What a run emits is, in this order, what the queue took, what was given up, and what the reader
has still in hand. -/
theorem emitted_in_order (hp : p.Idle) (h : p.steps ts = some q) :
    counts .emitted (p.history (ts.map .turn)) =
      counts .accepted (p.history (ts.map .turn)) ++ counts .lost (p.history (ts.map .turn)) ++
        q.remaining := by
  refine steps_induction (P := fun ts q => counts .emitted (p.history (ts.map .turn)) =
    counts .accepted (p.history (ts.map .turn)) ++ counts .lost (p.history (ts.map .turn)) ++
      q.remaining) ?_ ?_ h
  · rw [remaining, hp.reader]
    rfl
  · intro ts t q r hq hr ih
    have hadvance := advance_of_move (m := .turn t) hr
    have hinHand := (reading_of_advance hadvance).inHand
    rw [history_turn_concat hq hr]
    simp only [Event.counts_append]
    -- Nothing is queued any more once something was given up.
    have hdone : counts .lost (p.history (ts.map .turn)) = [] ∨
        counts .accepted (q.events (.turn t)) = [] := by
      by_cases hgone : q.readerGone = true
      · exact .inr (accepted_of_gone hgone hadvance)
      · exact .inl ((judged_of_phase (Bool.not_eq_true _ ▸ hgone)).1 (judged_of_steps hp hq)).2
    rw [ih, List.append_assoc, hinHand]
    rcases hdone with hnone | hnone
    · simp [hnone]
    · simp [hnone]

/-- In every state that a run reaches, whatever the settings: those word counts are being delivered
that were started and have not ended, no more at once than there are slots; no more are accepted and
have not ended than the queue, the dispatcher and the slots have room for; and deliveries are
started in the order in which the queue took their word counts, which is the order in which the
aggregator emits them. -/
theorem bounded_in_order (hp : p.Idle) (hrun : p.steps ts = some q) :
    (counts .started (p.history (ts.map .turn))).Perm (q.underWay ++
      (counts .delivered (p.history (ts.map .turn)) ++
        counts .failed (p.history (ts.map .turn)))) ∧
    q.underWay.length ≤ max p.settings.delivery.maxInFlight.toNat 1 ∧
    (counts .accepted (p.history (ts.map .turn))).length ≤
      (counts .delivered (p.history (ts.map .turn))).length +
        (counts .failed (p.history (ts.map .turn))).length +
        (max p.settings.delivery.bufferSize.toNat 1 + 1 +
          max p.settings.delivery.maxInFlight.toNat 1) ∧
    counts .started (p.history (ts.map .turn)) <+: counts .accepted (p.history (ts.map .turn)) ∧
    counts .accepted (p.history (ts.map .turn)) <+:
      (p.aggregator.outputs (p.operations ts)).flatten := by
  have hmoves := (moves_turn ts).trans hrun
  obtain ⟨haccepted, hstarted⟩ := custody_of_moves hp.toFresh hmoves
  have hbounded := (bounded_iff (settings_of_moves hmoves)).1 (bounded_of_moves hp.toFresh hmoves)
  refine ⟨hstarted, ?_, accepted_le hp.toFresh hmoves, ⟨_, haccepted.symm⟩, ?_⟩
  · rw [underWay, List.length_map]
    exact hbounded.2
  · rw [← (emitted_of_steps hrun).1, emitted_in_order hp hrun, List.append_assoc]
    exact List.prefix_append _ _

end

/-- The theorem for a state in which both bounds are met and the reader waits. -/
theorem bounded_in_order_when_stalled : ∃ q, stuckFirst.steps stalled = some q ∧
    q.underWay.length = 1 ∧
    (counts .accepted (stuckFirst.history (stalled.map .turn))).length = 1 + 1 + 1 ∧
    (counts .delivered (stuckFirst.history (stalled.map .turn))).length +
      (counts .failed (stuckFirst.history (stalled.map .turn))).length = 0 ∧
    (q.step .read).isNone = true ∧
    counts .accepted (stuckFirst.history (stalled.map .turn)) <+:
      (stuckFirst.aggregator.outputs (stuckFirst.operations stalled)).flatten := by
  obtain ⟨q, hrun⟩ : ∃ q, stuckFirst.steps stalled = some q := ⟨_, rfl⟩
  have hactive : (stuckFirst.steps stalled).map (·.underWay.length) = some 1 := by decide +kernel
  have hwaits : (stuckFirst.steps stalled).map (fun q => (q.step .read).isNone) = some true := by
    decide +kernel
  rw [hrun, Option.map_some, Option.some_inj] at hactive hwaits
  obtain ⟨-, -, -, -, hinOrder⟩ :=
    bounded_in_order (idle_atRest (s := tightSettings) (a := tightAggregator) rfl _ _) hrun
  exact ⟨q, hrun, hactive, by decide +kernel, by decide +kernel, hwaits, hinOrder⟩

end WindowTally.Pipeline
