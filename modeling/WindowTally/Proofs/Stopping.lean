import WindowTally.Proofs.Outcome
import WindowTally.Proofs.Workload

/-!
# A request to stop is never lost

A handle asks the reader to stop in two steps, of which the second leaves a notice. The
flag that the first one clears may be set again by a run that begins, so all rests on the
notice: it stays until the reader sees it, and the reader looks for it before it waits
(`Stopping`, kept by every turn). A reader that is already past that look polls its
source once more; it does not get there again (`winds_of_step`).

So once a request has been made the run winds down, whatever the order of turns and
however many requests there are (`winds_down_of_stop`). It ends with the drain, if the
settings ask for it, unless reading fails before (`drained_of_steps`).
-/
namespace WindowTally

/-- Whether the reader takes the turn. -/
@[simp]
def Turn.reads : Turn → Bool
  | .read | .flush _ => true
  | _ => false

theorem reads_of_elsewhere {t : Turn} (h : t ≠ .read ∧ ∀ now, t ≠ .flush now) :
    t.reads = false := by
  cases t with
  | read => exact absurd rfl h.1
  | flush now => exact absurd rfl (h.2 now)
  | _ => rfl

namespace ReaderPhase

/-- How often a reader that is asked to stop still polls its source at most. -/
@[simp]
def pollsLeft : ReaderPhase → Nat
  | .polling => 1
  | _ => 0

/-- How many operations it still carries out at most. -/
@[simp]
def operationsLeft : ReaderPhase → Nat
  | .polling => 2
  | .idle | .checking | .waiting | .forwarding _ | .closing => 1
  | _ => 0

/-- How many turns it still takes at most, if nothing more is emitted. -/
@[simp]
def turnsLeft : ReaderPhase → Nat
  | .idle => 6
  | .checking => 5
  | .waiting => 4
  | .polling => 7
  | .forwarding cs => cs.length + 6
  | .closing => 3
  | .forwardingLast cs => cs.length + 2
  | .finishing _ => 1
  | .returned _ => 0

end ReaderPhase

namespace Pipeline

open Event (counts)

variable {ι σ : Type} [Source ι] [Sink σ] {p q r : Pipeline ι σ} {t : Turn} {ts us : List Turn}

/-! ## Polls -/

/-- The answer of the source in a turn in which the reader polls it. -/
def poll? (p : Pipeline ι σ) : Turn → Option Polled
  | .read =>
    match p.reader with
    | .polling => some (Source.poll p.source).1
    | _ => none
  | _ => none

omit [Sink σ] in
theorem poll?_of_elsewhere (h : t ≠ .read ∧ ∀ now, t ≠ .flush now) : p.poll? t = none := by
  cases t with
  | read => exact absurd rfl h.1
  | _ => rfl

omit [Sink σ] in
theorem length_poll?_read (p : Pipeline ι σ) :
    (p.poll? .read).toList.length = p.reader.pollsLeft := by
  unfold poll?
  cases p.reader <;> rfl

/-- The answers that the reader gets from its source in a run. -/
def polls (p : Pipeline ι σ) (ts : List Turn) : List Polled :=
  p.log (fun p t => (p.poll? t).toList) ts

/-- No more records are taken in than the source was polled. -/
theorem countP_operations_le (h : p.steps ts = some q) :
    (p.operations ts).countP Operation.takesIn ≤ (p.polls ts).length := by
  have hturn (p : Pipeline ι σ) (t : Turn) :
      (p.operation? t).toList.countP Operation.takesIn ≤ (p.poll? t).toList.length := by
    cases t with
    | read =>
      cases hreader : p.reader with
      | polling =>
        simp only [poll?, hreader, Option.toList_some, List.length_singleton]
        exact Nat.le_trans List.countP_le_length (Option.length_toList_le)
      | closing =>
        simp only [operation?, hreader]
        split <;> simp [Operation.takesIn]
      | _ => simp [operation?, hreader]
    | flush now => simp [operation?, Operation.takesIn]
    | _ => simp [operation?]
  induction ts generalizing p with
  | nil => exact Nat.le_refl 0
  | cons t ts ih =>
    obtain ⟨r, hr, hq, -⟩ := steps_cons h
    rw [operations, polls, log_cons _ hr, log_cons _ hr, List.countP_append, List.length_append]
    exact Nat.add_le_add (hturn p t) (ih hq)

/-! ## After the notice -/

/-- The reader has left its loop. -/
def hasLeft (p : Pipeline ι σ) : Bool :=
  match p.reader with
  | .closing | .forwardingLast _ | .finishing _ | .returned _ => true
  | _ => false

/-- The run has been asked to stop: there is a notice that the reader has yet to see, or it has left
its loop. -/
def Stopping (p : Pipeline ι σ) : Prop := p.notice = true ∨ p.hasLeft = true

omit [Source ι] [Sink σ] in
theorem Stopping.asked (hp : p.Stopping) (h : p.hasLeft = false) : p.notice = true :=
  hp.resolve_right (by simp [h])

theorem notice_of_notify (h : p.step .notify = some q) : q.notice = true := by
  simp only [step] at h
  split at h
  · cases h
  · cases h
    rfl

theorem stopping_of_step (hp : p.Stopping) (h : p.step t = some q) : q.Stopping := by
  cases reads_of_step h with
  | aside elsewhere same running notice =>
    rcases notice with hnotice | rfl
    · rw [Stopping, hasLeft, same.reader, hnotice]
      exact hp
    · exact .inl (notice_of_notify h)
  | begins phase | misses phase polled | receives phase polled | flushes phase due | goesOn phase =>
    exact .inl (hp.asked (by rw [hasLeft, phase]))
  | checks phase => exact .inl (hp.asked (by rw [hasLeft, phase]))
  | proceeds phase unasked =>
    have hasked := hp.asked (by rw [hasLeft, phase])
    rw [unasked] at hasked
    cases hasked
  | forwards isOpen room left =>
    rcases left with ⟨phase, rfl⟩ | ⟨phase, rfl⟩
    · exact .inl (hp.asked (by rw [hasLeft, phase]))
    · exact .inr rfl
  | _ => exact .inr rfl

theorem stopping_of_steps (hp : p.Stopping) (h : p.steps ts = some q) : q.Stopping :=
  steps_induction (P := fun _ q => q.Stopping) hp (fun _ hr hq => stopping_of_step hq hr) h

/-- A notice that has been left is there, or has been seen. -/
theorem stopping_of_notify (h : p.steps ts = some q) (hstop : .notify ∈ ts) : q.Stopping := by
  revert hstop
  refine steps_induction (P := fun ts q => .notify ∈ ts → q.Stopping) (fun hstop => by cases hstop)
    ?_ h
  intro ts t q r hq hr ih hstop
  rcases List.mem_append.1 hstop with hbefore | hnow
  · exact stopping_of_step (ih hbefore) hr
  · rw [List.mem_singleton] at hnow
    subst hnow
    exact .inl (notice_of_notify hr)

/-! ## Winding down -/

/-- What turns from `p` to `q`, with what is seen in them, use up of what is left. -/
structure Winds (p : Pipeline ι σ) (ts : List Turn) (polled : List Polled) (ops : List Operation)
    (es : List Event) (q : Pipeline ι σ) : Prop where
  polls : polled.length + q.reader.pollsLeft ≤ p.reader.pollsLeft
  operations : ops.length + q.reader.operationsLeft ≤ p.reader.operationsLeft
  turns : ts.countP Turn.reads + q.reader.turnsLeft ≤
    p.reader.turnsLeft + (counts .emitted es).length

omit [Source ι] [Sink σ] in
theorem Winds.trans {polled polled' : List Polled} {ops ops' : List Operation}
    {es es' : List Event} (hp : Winds p ts polled ops es q) (hq : Winds q us polled' ops' es' r) :
    Winds p (ts ++ us) (polled ++ polled') (ops ++ ops') (es ++ es') r := by
  obtain ⟨hpolls, hoperations, hturns⟩ := hp
  obtain ⟨hpolls', hoperations', hturns'⟩ := hq
  refine ⟨?_, ?_, ?_⟩
  · rw [List.length_append]
    omega
  · rw [List.length_append]
    omega
  · rw [List.countP_append, Event.counts_append, List.length_append]
    omega

/-- What a turn uses up. -/
def WindsIn (p : Pipeline ι σ) (t : Turn) (q : Pipeline ι σ) : Prop :=
  Winds p [t] (p.poll? t).toList (p.operation? t).toList (p.events (.turn t)) q

/-- Someone else's turn uses up nothing. -/
theorem winds_of_elsewhere (elsewhere : t ≠ .read ∧ ∀ now, t ≠ .flush now)
    (same : q.reader = p.reader) : WindsIn p t q := by
  rw [WindsIn, poll?_of_elsewhere elsewhere, operation?_of_elsewhere elsewhere]
  refine ⟨?_, ?_, ?_⟩
  · rw [same]
    exact Nat.le_of_eq (Nat.zero_add _)
  · rw [same]
    exact Nat.le_of_eq (Nat.zero_add _)
  · have hreads : ¬ t.reads = true := by
      rw [reads_of_elsewhere elsewhere]
      decide
    rw [List.countP_cons_of_neg hreads, List.countP_nil, same, Nat.zero_add]
    exact Nat.le_add_right _ _

/-- A step of the reader without an operation emits nothing. -/
theorem winds_of_quiet (quiet : p.operation? .read = none) (past : q.reader.pollsLeft = 0)
    (operations : q.reader.operationsLeft ≤ p.reader.operationsLeft)
    (turns : q.reader.turnsLeft < p.reader.turnsLeft) : WindsIn p .read q := by
  refine ⟨?_, ?_, ?_⟩
  · rw [length_poll?_read, past]
    exact Nat.le_refl _
  · rw [quiet]
    exact Nat.le_trans (Nat.le_of_eq (Nat.zero_add _)) operations
  · refine Nat.le_trans ?_ (Nat.le_add_right _ _)
    exact Nat.le_trans (Nat.le_of_eq (Nat.add_comm _ _)) turns

/-- What an operation emits is what the reader then has in hand. -/
theorem winds_of_operation {op : Operation} (ht : t.reads = true)
    (loud : p.operation? t = some op)
    (polls : (p.poll? t).toList.length + q.reader.pollsLeft ≤ p.reader.pollsLeft)
    (operations : q.reader.operationsLeft < p.reader.operationsLeft)
    (turns : q.reader.turnsLeft < p.reader.turnsLeft + (p.aggregator.operate op).1.length) :
    WindsIn p t q := by
  refine ⟨polls, ?_, ?_⟩
  · rw [loud, Option.toList_some, List.length_singleton, Nat.add_comm]
    exact operations
  · have hemitted : (counts .emitted (p.events (.turn t))).length =
        (p.aggregator.operate op).1.length := by
      rw [emitted_of_turn, loud]
      simp [Aggregator.outputs]
    rw [List.countP_cons_of_pos ht, List.countP_nil, hemitted]
    omega

theorem winds_of_step (hp : p.Stopping) (h : p.step t = some q) : WindsIn p t q := by
  cases reads_of_step h with
  | aside elsewhere same running notice => exact winds_of_elsewhere elsewhere same.reader
  | proceeds phase unasked =>
    have hasked := hp.asked (by rw [hasLeft, phase])
    rw [unasked] at hasked
    cases hasked
  | checks phase =>
    refine winds_of_quiet (by rw [operation?, phase]) ?_ ?_ ?_
    · cases p.running <;> rfl
    · cases p.running <;> simp [phase]
    · cases p.running <;> simp [phase]
  | begins phase =>
    exact winds_of_quiet (by rw [operation?, phase]) rfl (by simp [phase, start])
      (by simp [phase, start])
  | heeds phase asked | goesOn phase | returns phase done =>
    exact winds_of_quiet (by rw [operation?, phase]) rfl (by simp [phase]) (by simp [phase])
  | misses phase polled | ends phase polled | breaks phase polled =>
    exact winds_of_quiet (by simp [operation?, phase, polled]) rfl (by simp [phase])
      (by simp [phase])
  | @receives r source phase polled =>
    have hoperation : p.operation? .read = some (.record r) := by simp [operation?, phase, polled]
    refine winds_of_operation rfl hoperation ?_ ?_ ?_
    · exact Nat.le_of_eq (length_poll?_read p)
    · simp [phase]
    · simp only [phase, ReaderPhase.turnsLeft]
      omega
  | @flushes now nextFlush phase due =>
    have hoperation : p.operation? (.flush now) = some (.flush now) := rfl
    refine winds_of_operation rfl hoperation (Nat.zero_le _) ?_ ?_
    · simp [phase]
    · simp only [phase, ReaderPhase.turnsLeft]
      omega
  | drains phase asked =>
    have hoperation : p.operation? .read = some .drain := by simp [operation?, phase, asked]
    refine winds_of_operation rfl hoperation ?_ ?_ ?_
    · exact Nat.le_of_eq (length_poll?_read p)
    · simp [phase]
    · simp only [phase, ReaderPhase.turnsLeft]
      omega
  | forwards isOpen room left =>
    rcases left with ⟨phase, rfl⟩ | ⟨phase, rfl⟩
    · exact winds_of_quiet (by rw [operation?, phase]) rfl (by simp [phase]) (by simp [phase])
    · exact winds_of_quiet (by rw [operation?, phase]) rfl (by simp [phase]) (by simp [phase])
  | givesUp isClosed inHand =>
    rcases inHand with phase | phase
    · exact winds_of_quiet (by rw [operation?, phase]) rfl (by simp [phase]) (by simp [phase])
    · exact winds_of_quiet (by rw [operation?, phase]) rfl (by simp [phase]) (by simp [phase])
  | finishes phase =>
    rcases phase with ⟨phase, unasked⟩ | phase
    · exact winds_of_quiet (by simp [operation?, phase, unasked]) rfl (by simp [phase])
        (by simp [phase])
    · exact winds_of_quiet (by rw [operation?, phase]) rfl (by simp [phase]) (by simp [phase])

theorem winds_of_steps (hp : p.Stopping) (h : p.steps ts = some q) :
    Winds p ts (p.polls ts) (p.operations ts) (p.history (ts.map .turn)) q := by
  induction ts generalizing p with
  | nil =>
    cases h
    refine ⟨Nat.le_of_eq (Nat.zero_add _), Nat.le_of_eq (Nat.zero_add _), ?_⟩
    exact Nat.le_of_eq (Nat.zero_add _)
  | cons t ts ih =>
    obtain ⟨r, hr, hq, hhistory⟩ := steps_cons h
    have hwinds := (winds_of_step hp hr).trans (ih (stopping_of_step hp hr) hq)
    rw [polls, operations, log_cons _ hr, log_cons _ hr, hhistory]
    exact hwinds

/-! ### The work that is left -/

/-- A bound on the turns that are left to all parties, if nothing more is emitted. -/
def windingWork (p : Pipeline ι σ) : Nat :=
  p.reader.turnsLeft + (2 * p.maxRetries.toNat + 4) * p.remaining.length + p.deliveringWork

/-- What the reader queues is work behind the queue. -/
theorem deliveringWork_of_reads (ht : t.reads = true) (h : p.step t = some q) :
    q.deliveringWork + (2 * p.maxRetries.toNat + 4) * q.remaining.length ≤
      p.deliveringWork + (2 * p.maxRetries.toNat + 4) *
        (p.remaining.length + (counts .emitted (p.events (.turn t))).length) := by
  have hadvance := advance_of_move (m := .turn t) h
  have hinHand := congrArg List.length (reading_of_advance hadvance).inHand
  simp only [List.length_append] at hinHand
  have hbehind (same : q.queue = p.queue ∧ q.dispatcher = p.dispatcher ∧ q.active = p.active ∧
      q.settled = p.settled) :
      q.deliveringWork + (2 * p.maxRetries.toNat + 4) * q.remaining.length ≤
        p.deliveringWork + (2 * p.maxRetries.toNat + 4) *
          (p.remaining.length + (counts .emitted (p.events (.turn t))).length) := by
    obtain ⟨hqueue, hdispatcher, hactive, hsettled⟩ := same
    have hmul := Nat.mul_le_mul_left (2 * p.maxRetries.toNat + 4)
      (show q.remaining.length ≤
        p.remaining.length + (counts .emitted (p.events (.turn t))).length by omega)
    rw [deliveringWork, deliveringWork, held, held, maxRetries_of_advance hadvance, hqueue,
      hdispatcher, hactive, hsettled]
    omega
  cases reads_of_step h with
  | aside elsewhere same running notice =>
    rw [reads_of_elsewhere elsewhere] at ht
    cases ht
  | @forwards c cs next isOpen room left =>
    have hnext : p.remaining.length = next.remaining.length + 1 := by
      rcases left with ⟨phase, rfl⟩ | ⟨phase, rfl⟩
      · rw [remaining, phase]
        rfl
      · rw [remaining, phase]
        rfl
    have hmul := Nat.mul_le_mul_left (2 * p.maxRetries.toNat + 4)
      (show next.remaining.length + 1 ≤
        p.remaining.length + (counts .emitted (p.events (.turn .read))).length by omega)
    simp only [deliveringWork, held, maxRetries, settings, remaining, List.length_append,
      List.length_singleton, Nat.mul_succ] at hmul ⊢
    omega
  | _ => exact hbehind ⟨rfl, rfl, rfl, rfl⟩

theorem windingWork_of_step (hm : p.maxRetries.toNat + 1 < 2 ^ 32) (htame : p.Tame)
    (hp : p.Stopping) (h : p.step t = some q) :
    [t].countP Turn.works + q.windingWork ≤ p.windingWork +
      (2 * p.maxRetries.toNat + 5) * (counts .emitted (p.events (.turn t))).length := by
  have hmax : q.maxRetries = p.maxRetries :=
    maxRetries_of_advance (advance_of_move (m := .turn t) h)
  by_cases hreads : t.reads = true
  · have hone : [t].countP Turn.works ≤ [t].countP Turn.reads :=
      List.countP_mono_left fun u hu _ => List.mem_singleton.1 hu ▸ hreads
    have hturns := (winds_of_step hp h).turns
    have hbehind := deliveringWork_of_reads hreads h
    have hmul : (2 * p.maxRetries.toNat + 5) * (counts .emitted (p.events (.turn t))).length =
        (2 * p.maxRetries.toNat + 4) * (counts .emitted (p.events (.turn t))).length +
          (counts .emitted (p.events (.turn t))).length := Nat.succ_mul _ _
    rw [Nat.mul_add] at hbehind
    rw [windingWork, windingWork, hmax]
    omega
  · cases reads_of_step h with
    | aside elsewhere same running notice =>
      have hless := deliveringWork_of_elsewhere hm htame elsewhere h
      rw [windingWork, windingWork, hmax, remaining, remaining, same.reader]
      omega
    | _ => exact absurd rfl hreads

theorem windingWork_of_steps (hm : p.maxRetries.toNat + 1 < 2 ^ 32) (htame : p.Tame)
    (hp : p.Stopping) (h : p.steps ts = some q) :
    ts.countP Turn.works + q.windingWork ≤ p.windingWork + (2 * p.maxRetries.toNat + 5) *
      (counts .emitted (p.history (ts.map .turn))).length := by
  induction ts generalizing p with
  | nil =>
    cases h
    exact Nat.le_of_eq (Nat.zero_add _)
  | cons t ts ih =>
    obtain ⟨r, hr, hq, hhistory⟩ := steps_cons h
    have hadvance := advance_of_move (m := .turn t) hr
    have hmax := maxRetries_of_advance hadvance
    have hfirst := windingWork_of_step hm htame hp hr
    have hrest := ih (hmax ▸ hm) (tame_of_advance htame hadvance) (stopping_of_step hp hr) hq
    rw [hmax] at hrest
    rw [hhistory, Event.counts_append, List.length_append, Nat.mul_add, ← List.singleton_append,
      List.countP_append]
    omega

/-! ### The drain -/

/-- A reader that has left its loop has drained, unless it was not to or has failed. -/
def Drained (q : Pipeline ι σ) (ops : List Operation) (faults : List Fault)
    (lost : List WordCount) : Prop :=
  match q.reader with
  | .forwardingLast _ => ops.getLast? = some .drain
  | .finishing _ | .returned _ =>
    q.settings.flushOnClose = true → ops.getLast? = some .drain ∨ faults ≠ [] ∨ lost ≠ []
  | _ => True

theorem drained_of_step {ops : List Operation} {faults : List Fault}
    {lost : List WordCount} (hp : p.Drained ops faults lost) (h : p.step t = some q) :
    q.Drained (ops ++ (p.operation? t).toList) (faults ++ (p.sourceFault? t).toList)
      (lost ++ counts .lost (p.events (.turn t))) := by
  have hsettings := settings_of_advance (advance_of_move (m := .turn t) h)
  -- Faults and losses stay, and so does the last operation if no other follows.
  have hkept (hquiet : p.operation? t = none)
      (hdone : p.settings.flushOnClose = true →
        ops.getLast? = some .drain ∨ faults ≠ [] ∨ lost ≠ []) :
      q.settings.flushOnClose = true →
        (ops ++ (p.operation? t).toList).getLast? = some .drain ∨
          faults ++ (p.sourceFault? t).toList ≠ [] ∨
            lost ++ counts .lost (p.events (.turn t)) ≠ [] := by
    intro hflush
    rw [hsettings] at hflush
    rw [hquiet, Option.toList_none, List.append_nil]
    refine (hdone hflush).imp_right (Or.imp (fun hfaults => ?_) fun hlost => ?_)
    · exact List.append_ne_nil_of_left_ne_nil hfaults _
    · exact List.append_ne_nil_of_left_ne_nil hlost _
  cases reads_of_step h with
  | aside elsewhere same running notice =>
    have hquiet : p.operation? t = none := operation?_of_elsewhere elsewhere
    unfold Drained at hp ⊢
    rw [same.reader]
    cases hreader : p.reader with
    | forwardingLast cs =>
      rw [hreader] at hp
      rw [hquiet, Option.toList_none, List.append_nil]
      exact hp
    | finishing reading =>
      rw [hreader] at hp
      exact hkept hquiet hp
    | returned outcome =>
      rw [hreader] at hp
      exact hkept hquiet hp
    | _ => trivial
  | begins phase | heeds phase asked | proceeds phase unasked | misses phase polled
  | receives phase polled | ends phase polled | flushes phase due | goesOn phase => trivial
  | checks phase =>
    unfold Drained
    cases p.running <;> trivial
  | breaks phase polled => exact fun _ => .inr (.inl (by simp [sourceFault?, phase, polled]))
  | forwards isOpen room left =>
    rcases left with ⟨phase, rfl⟩ | ⟨phase, rfl⟩
    · trivial
    · rw [Drained, phase] at hp
      rw [Drained, operation?, phase, Option.toList_none, List.append_nil]
      exact hp
  | givesUp isClosed inHand =>
    refine fun _ => .inr (.inr (List.append_ne_nil_of_right_ne_nil _ ?_))
    rw [lost_of_turn, if_pos ⟨rfl, isClosed⟩]
    rcases inHand with phase | phase
    · simp [remaining, phase, ReaderPhase.remaining]
    · simp [remaining, phase, ReaderPhase.remaining]
  | drains phase asked => simp [Drained, operation?, phase, asked]
  | finishes phase =>
    rcases phase with ⟨phase, unasked⟩ | phase
    · refine fun hflush => ?_
      rw [hsettings, unasked] at hflush
      cases hflush
    · rw [Drained, phase] at hp
      exact hkept (by rw [operation?, phase]) fun _ => .inl hp
  | returns phase done =>
    rw [Drained, phase] at hp
    exact hkept (by rw [operation?, phase]) hp

theorem drained_of_steps (hp : p.reader = .idle) (h : p.steps ts = some q) :
    q.Drained (p.operations ts) (p.sourceFaults ts) (counts .lost (p.history (ts.map .turn))) := by
  refine steps_induction (P := fun ts q => q.Drained (p.operations ts) (p.sourceFaults ts)
    (counts .lost (p.history (ts.map .turn)))) (by rw [Drained, hp]; trivial) ?_ h
  intro ts t q r hq hr ih
  rw [operations, sourceFaults, log_concat _ hq hr, log_concat _ hq hr, history_turn_concat hq hr,
    Event.counts_append]
  exact drained_of_step ih hr

/-! ### From a request to stop on -/

/-- A reader that has not begun has polled nothing. -/
theorem polls_of_idle (h : p.steps ts = some q) (hq : q.reader = .idle) : p.polls ts = [] := by
  revert hq
  refine steps_induction (P := fun ts q => q.reader = .idle → p.polls ts = []) (fun _ => rfl) ?_ h
  intro ts t q r hq hr ih hidle
  have haside : t ≠ .read ∧ q.reader = .idle := by
    cases reads_of_step hr with
    | aside elsewhere same running notice => exact ⟨elsewhere.1, same.reader ▸ hidle⟩
    | checks phase => cases hrunning : q.running <;> simp [hrunning] at hidle
    | forwards isOpen room left => rcases left with ⟨-, rfl⟩ | ⟨-, rfl⟩ <;> cases hidle
    | _ => cases hidle
  rw [polls, log_concat _ hq hr, ← polls, ih haside.2]
  cases t with
  | read => exact absurd rfl haside.1
  | _ => rfl

/-- How a run goes on from `q`, where a request to stop has been made, to `r`. The turns `ts` led
from `p` to `q`, and `us` are those that follow. -/
structure WindsDown (p : Pipeline ι σ) (ts : List Turn) (q : Pipeline ι σ) (us : List Turn)
    (r : Pipeline ι σ) : Prop where
  /-- The source is polled no more, or once if the reader was already past its look for a notice. -/
  polls : (q.polls us).length ≤ q.reader.pollsLeft
  /-- At most one more record is counted, and none but by such a poll. -/
  records : ∃ n ≤ q.reader.pollsLeft, r.stats.records = q.stats.records + UInt64.ofNat n
  /-- A request made before the run begins lets nothing be polled at all. -/
  unbegun : q.reader = .idle → p.polls (ts ++ us) = []
  /-- The aggregator is operated at most once more, or twice after such a poll. -/
  operations : (q.operations us).length ≤ q.reader.operationsLeft
  /-- The reader takes but few turns more, apart from those in which it queues what is emitted. -/
  turns : us.countP Turn.reads ≤
    q.reader.turnsLeft + (counts .emitted (q.history (us.map .turn))).length
  /-- So do all parties, if the retries are bounded. -/
  works : p.settings.delivery.maxRetries < FailureBudget.always → us.countP Turn.works ≤
    q.windingWork + (2 * p.maxRetries.toNat + 5) *
      (counts .emitted (q.history (us.map .turn))).length
  /-- Until the run is over, some party can go on. -/
  goesOn : r.outcome? = none → r.Stirs ∨ ∀ now, ∃ r', r.step (.flush now) = some r'
  /-- A run that is over ended with the drain if it was to, unless reading had failed: the source
  failed, or the queue was closed by a delivery that failed. -/
  drained : r.outcome? ≠ none → p.settings.flushOnClose = true →
    (p.operations (ts ++ us)).getLast? = some .drain ∨ p.sourceFaults (ts ++ us) ≠ [] ∨
      counts .lost (p.history ((ts ++ us).map .turn)) ≠ []

/-- Whatever the order of turns, a request to stop that has been made is not lost. -/
theorem winds_down_of_stop (hp : p.Idle) (hbefore : p.steps ts = some q) (hstop : .notify ∈ ts)
    (hafter : q.steps us = some r) : WindsDown p ts q us r := by
  have hstopping := stopping_of_notify hbefore hstop
  have hwinds := winds_of_steps hstopping hafter
  have hrun : p.steps (ts ++ us) = some r := by
    rw [← moves_turn, List.map_append, moves_append, moves_turn, hbefore, Option.bind_some,
      moves_turn, hafter]
  have htame := tame_of_moves hp.toFresh.tame ((moves_turn ts).trans hbefore)
  have hmax := maxRetries_of_moves ((moves_turn ts).trans hbefore)
  have hpolls : (q.polls us).length ≤ q.reader.pollsLeft :=
    Nat.le_trans (Nat.le_add_right _ _) hwinds.polls
  refine
    { polls := hpolls
      records := ⟨_, Nat.le_trans (countP_operations_le hafter) hpolls, ?_⟩
      unbegun := fun hidle => ?_
      operations := Nat.le_trans (Nat.le_add_right _ _) hwinds.operations
      turns := Nat.le_trans (Nat.le_add_right _ _) hwinds.turns
      works := fun hbounded => ?_
      goesOn := fun hgoing => ?_
      drained := fun hover hflush => ?_ }
  · have hpart := congrArg (fun a => a.stats.records) (emitted_of_steps hafter).2
    exact hpart.trans (Aggregator.records_after _ _)
  · rw [hidle] at hpolls
    rw [polls, log_append _ hbefore, ← polls, ← polls, polls_of_idle hbefore hidle,
      List.eq_nil_of_length_eq_zero (Nat.le_zero.1 hpolls)]
    rfl
  · have hworks := windingWork_of_steps ?_ htame hstopping hafter
    · rw [hmax] at hworks
      exact Nat.le_trans (Nat.le_add_right _ _) hworks
    · rw [hmax]
      exact Nat.succ_lt_succ (UInt32.lt_iff_toNat_lt.1 hbounded)
  · have htame' := tame_of_moves hp.toFresh.tame ((moves_turn _).trans hrun)
    refine stirs_or_flushes htame' hgoing fun hlistens => ?_
    have hasked := (stopping_of_steps hstopping hafter).asked (by rw [hasLeft, hlistens.1])
    rw [hlistens.2.1] at hasked
    cases hasked
  · have hdrained := drained_of_steps hp.reader hrun
    have hsettings := settings_of_moves ((moves_turn _).trans hrun)
    unfold Drained at hdrained
    unfold outcome? at hover
    cases hreader : r.reader with
    | returned outcome =>
      rw [hreader] at hdrained
      exact hdrained (hsettings ▸ hflush)
    | _ => simp [hreader] at hover

/-- A pipeline with three records to read. -/
def threeRecords : Pipeline ListSource MemorySink :=
  atRest tightAggregator { records := [⟨0, [97], none⟩, ⟨0, [98], none⟩, ⟨0, [99], none⟩] } {}

/-- A handle clears the flag before the run begins, which sets it again; the notice comes when the
reader is past its look for one. -/
def askedTooLate : List Turn := [.clearRunning, .read, .read, .read, .notify]

/-- The rest of the run. -/
def windingDown : List Turn :=
  List.replicate 7 .read ++ [.dispatch, .dispatch, .dispatch, .dispatch, .offer 0, .collect 0,
    .dispatch, .read]

/-- The theorem for a run in which one record of three is still counted, and drained. -/
theorem winds_down_of_stop_asked_too_late : ∃ q r, threeRecords.steps askedTooLate = some q ∧
    q.steps windingDown = some r ∧ q.reader.pollsLeft = 1 ∧ r.stats.records = 1 ∧
    r.outcome?.isSome = true ∧ WindsDown threeRecords askedTooLate q windingDown r := by
  obtain ⟨q, hbefore⟩ : ∃ q, threeRecords.steps askedTooLate = some q := ⟨_, rfl⟩
  have hpolling : (threeRecords.steps askedTooLate).map (·.reader.pollsLeft) = some 1 := by
    decide +kernel
  have hover : (threeRecords.steps askedTooLate).bind (fun q => (q.steps windingDown).map fun r =>
      (r.stats.records, r.outcome?.isSome)) = some (1, true) := by
    decide +kernel
  rw [hbefore, Option.map_some, Option.some_inj] at hpolling
  rw [hbefore, Option.bind_some] at hover
  obtain ⟨r, hafter, hends⟩ := Option.map_eq_some_iff.1 hover
  rw [Prod.mk.injEq] at hends
  exact ⟨q, r, hbefore, hafter, hpolling, hends.1, hends.2,
    winds_down_of_stop (idle_atRest (s := tightSettings) rfl _ _) hbefore (by decide) hafter⟩

end Pipeline

end WindowTally
