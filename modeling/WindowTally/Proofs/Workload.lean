import WindowTally.Proofs.StuckWord
import WindowTally.Proofs.Undisturbed

/-!
# The work that is left

An undisturbed run over a list of records comes to an end: every turn but the passing of
time lowers the work that is left (`work_of_step`), so there are no more such turns than
there is work at the start (`works_of_steps`). Together with `goesOn_of_going` this says
that such a run is over sooner or later, unless a flush comes.

A word count costs more the earlier it stands on its way, one for each place it has to
go through and two for each time it may be tried again; the reader costs four turns for
each record, and a few to start and to close.
-/
namespace WindowTally

/-- How far the dispatcher is from done. -/
def DispatcherPhase.work : DispatcherPhase → Nat
  | .serving | .holding _ => 3
  | .emptying | .holdingLast _ => 2
  | .joining => 1
  | .finished => 0

/-- How many more turns a delivery takes at most when it is tried again `m` times at most; an ended
one is still to be collected. -/
def Delivery.work (m : Nat) (d : Delivery) : Nat :=
  2 * (m - d.attempts.toNat) +
    match d.phase with
    | .pausing _ => 3
    | _ => 2

namespace Pipeline

open Event (counts)

variable {ι σ : Type}

/-- The work behind the queue. -/
def deliveringWork (p : Pipeline ι σ) : Nat :=
  (2 * p.maxRetries.toNat + 4) * p.queue.length + (2 * p.maxRetries.toNat + 3) * p.held.length +
    (p.active.map (Delivery.work p.maxRetries.toNat)).sum + p.settled.length + p.dispatcher.work

/-- The work of the reader, without the word counts that it queues. -/
def readerWork (p : Pipeline ListSource σ) : Nat :=
  match p.reader with
  | .idle | .forwarding _ => 4 * p.source.records.length + 7
  | .checking => 4 * p.source.records.length + 6
  | .waiting => 4 * p.source.records.length + 5
  | .polling => 4 * p.source.records.length + 4
  | .closing => 3
  | .forwardingLast _ => 2
  | .finishing _ => 1
  | .returned _ => 0

/-- How many word counts the reader has yet to queue. -/
def unqueued (p : Pipeline ListSource σ) : Nat :=
  p.remaining.length + (p.aggregator.outputs p.dueOperations).flatten.length

/-- A bound on the turns that are left. -/
def work (p : Pipeline ListSource σ) : Nat :=
  p.readerWork + (2 * p.maxRetries.toNat + 5) * p.unqueued + p.deliveringWork

/-! ## Behind the queue -/

section
variable {p q : Pipeline ι σ}

theorem deliveringWork_of_take {c : WordCount} {cs : List WordCount} {next : DispatcherPhase}
    (hqueue : p.queue = c :: cs)
    (phase : p.dispatcher = .serving ∧ next = .holding c ∨
      p.dispatcher = .emptying ∧ next = .holdingLast c) :
    ({ p with queue := cs, dispatcher := next } : Pipeline ι σ).deliveringWork <
      p.deliveringWork := by
  rcases phase with ⟨hphase, rfl⟩ | ⟨hphase, rfl⟩
  · simp only [deliveringWork, held, maxRetries, settings, hqueue, hphase, DispatcherPhase.work,
      List.length_cons, List.length_nil, Nat.mul_succ]
    omega
  · simp only [deliveringWork, held, maxRetries, settings, hqueue, hphase, DispatcherPhase.work,
      List.length_cons, List.length_nil, Nat.mul_succ]
    omega

theorem deliveringWork_of_launch {c : WordCount} {next : DispatcherPhase}
    (phase : p.dispatcher = .holding c ∧ next = .serving ∨
      p.dispatcher = .holdingLast c ∧ next = .emptying) (h : p.launch c next = some q) :
    q.deliveringWork < p.deliveringWork := by
  have hnew : Delivery.work p.maxRetries.toNat { count := c } = 2 * p.maxRetries.toNat + 2 := rfl
  unfold launch at h
  split at h
  · cases h
    rcases phase with ⟨hphase, rfl⟩ | ⟨hphase, rfl⟩
    · simp only [deliveringWork, held, maxRetries, settings, hphase, DispatcherPhase.work,
        List.length_cons, List.length_nil, List.map_append, List.map_cons, List.map_nil,
        List.sum_append, List.sum_cons, List.sum_nil] at hnew ⊢
      omega
    · simp only [deliveringWork, held, maxRetries, settings, hphase, DispatcherPhase.work,
        List.length_cons, List.length_nil, List.map_append, List.map_cons, List.map_nil,
        List.sum_append, List.sum_cons, List.sum_nil] at hnew ⊢
      omega
  · cases h

theorem deliveringWork_of_dispatch (h : p.dispatch = some q) :
    q.deliveringWork < p.deliveringWork := by
  -- Going on to the next part of its work, the dispatcher leaves everything else as it is.
  have hphases {next : DispatcherPhase} (hlt : next.work < p.dispatcher.work)
      (hheld : p.held = []) (hnext : ({ p with dispatcher := next } : Pipeline ι σ).held = []) :
      ({ p with dispatcher := next } : Pipeline ι σ).deliveringWork < p.deliveringWork := by
    rw [deliveringWork, deliveringWork, hheld, hnext]
    exact Nat.add_lt_add_left hlt _
  unfold dispatch at h
  cases hphase : p.dispatcher with
  | serving =>
    rw [hphase] at h
    simp only at h
    split at h
    · next c cs hqueue =>
      cases h
      exact deliveringWork_of_take hqueue (.inl ⟨hphase, rfl⟩)
    · split at h
      · cases h
        exact hphases (by rw [hphase]; decide) (by rw [held, hphase]) rfl
      · cases h
  | holding c =>
    rw [hphase] at h
    exact deliveringWork_of_launch (.inl ⟨hphase, rfl⟩) h
  | emptying =>
    rw [hphase] at h
    simp only at h
    split at h
    · next c cs hqueue =>
      cases h
      exact deliveringWork_of_take hqueue (.inr ⟨hphase, rfl⟩)
    · cases h
      exact hphases (by rw [hphase]; decide) (by rw [held, hphase]) rfl
  | holdingLast c =>
    rw [hphase] at h
    exact deliveringWork_of_launch (.inr ⟨hphase, rfl⟩) h
  | joining =>
    rw [hphase] at h
    simp only at h
    split at h
    · cases h
      exact hphases (by rw [hphase]; decide) (by rw [held, hphase]) rfl
    · cases h
  | finished =>
    rw [hphase] at h
    cases h

theorem deliveringWork_of_collect {i : Nat} (h : p.collect i = some q) :
    q.deliveringWork < p.deliveringWork := by
  unfold collect at h
  split at h
  · cases h
  · next outcome hended =>
    obtain ⟨hi, -⟩ := List.getElem?_eq_some_iff.1 hended
    have hlength := List.length_eraseIdx_of_lt hi
    simp only [note_eq] at h
    split at h
    · next hphase =>
      cases h
      split
      · simp only [deliveringWork, held, maxRetries, settings, hphase, DispatcherPhase.work,
          hlength]
        omega
      · simp only [deliveringWork, held, maxRetries, settings, hphase, DispatcherPhase.work,
          hlength]
        omega
    · next hphase =>
      cases h
      simp only [deliveringWork, held, maxRetries, settings, hphase, DispatcherPhase.work, hlength]
      omega
    · cases h

theorem sum_split {before after : List Delivery} {d : Delivery} (f : Delivery → Nat) :
    ((before ++ d :: after).map f).sum = ((before ++ after).map f).sum + f d := by
  simp only [List.map_append, List.sum_append, List.map_cons, List.sum_cons]
  omega

/-- A delivery that is put back with less work, or among the ended ones, lowers the work. -/
theorem deliveringWork_of_replace {i : Nat} {d e : Delivery} (hrunning : p.active[i]? = some d)
    (hlt : e.outcome? = none → e.work p.maxRetries.toNat < d.work p.maxRetries.toNat) :
    (p.replace i e).deliveringWork < p.deliveringWork := by
  obtain ⟨before, after, hactive, herase, hset⟩ := active_split hrunning
  have hd : (p.active.map (Delivery.work p.maxRetries.toNat)).sum =
      ((before ++ after).map (Delivery.work p.maxRetries.toNat)).sum +
        d.work p.maxRetries.toNat := by
    rw [hactive, sum_split]
  unfold replace
  split
  · have hpos : 2 ≤ d.work p.maxRetries.toNat := by
      unfold Delivery.work
      split <;> omega
    simp only [deliveringWork, held, maxRetries, settings, herase, List.length_append,
      List.length_singleton] at hd hpos ⊢
    omega
  · next hgoing =>
    have hless := hlt hgoing
    have he : ((p.active.set i e).map (Delivery.work p.maxRetries.toNat)).sum =
        ((before ++ after).map (Delivery.work p.maxRetries.toNat)).sum +
          e.work p.maxRetries.toNat := by
      rw [hset, sum_split]
    simp only [deliveringWork, held, maxRetries, settings] at hd he hless ⊢
    omega

variable [Sink σ]

/-- An offer lowers the work if the delivery that makes it has less to do when it pauses. -/
theorem deliveringWork_of_answered {i : Nat} (hlt : ∀ d ∈ p.active, d.phase = .offering →
    (p.answered d).outcome? = none →
      (p.answered d).work p.maxRetries.toNat < d.work p.maxRetries.toNat)
    (h : p.offer i = some q) : q.deliveringWork < p.deliveringWork := by
  unfold offer at h
  split at h
  · next d hrunning =>
    split at h
    · next hphase =>
      cases h
      exact deliveringWork_of_replace (p := { p with
        sink := (Sink.deliver p.sink d.count).2
        aggregator := { p.aggregator with stats := countAnswer p.stats (p.answered d) } })
        (e := p.answered d) hrunning (hlt d (List.mem_of_getElem? hrunning) hphase)
    · cases h
  · cases h

theorem deliveringWork_of_offer {i : Nat} (hm : p.maxRetries.toNat + 1 < 2 ^ 32) (hp : p.Tame)
    (h : p.offer i = some q) : q.deliveringWork < p.deliveringWork := by
  refine deliveringWork_of_answered (fun d hd hphase hgoing => ?_) h
  rcases p.answered_cases d with
    ⟨-, hsettled⟩ | ⟨cause, -, ⟨hle, wake, hpauses⟩ | ⟨-, hsettled⟩⟩
  · rw [Delivery.outcome?, hsettled] at hgoing
    cases hgoing
  · have hsucc := toNat_succ (hp d hd).2 hm
    have hbound := UInt32.le_iff_toNat_le.1 hle
    simp only [Delivery.work, hpauses, hphase, attempts_answered] at hbound ⊢
    omega
  · rw [Delivery.outcome?, hsettled] at hgoing
    cases hgoing

omit [Sink σ] in
theorem deliveringWork_of_wake {i : Nat} (h : p.wake i = some q) :
    q.deliveringWork < p.deliveringWork := by
  unfold wake at h
  split at h
  · next d hrunning =>
    split at h
    · next t hphase =>
      split at h
      · cases h
        have hagain := deliveringWork_of_replace (e := { d with phase := .offering }) hrunning
          fun _ => by simp only [Delivery.work, hphase]; omega
        exact hagain
      · cases h
    · cases h
  · cases h

omit [Sink σ] in
/-- What others than the reader do lowers the work behind the queue, or is no work, if offers to
the sink lower it. -/
theorem deliveringWork_of_aside [Source ι] [Sink σ] {t : Turn}
    (hoffer : ∀ i, p.offer i = some q → q.deliveringWork < p.deliveringWork)
    (helse : t ≠ .read ∧ ∀ now, t ≠ .flush now) (h : p.step t = some q) :
    [t].countP Turn.works + q.deliveringWork ≤ p.deliveringWork := by
  cases t with
  | read => exact absurd rfl helse.1
  | flush now => exact absurd rfl (helse.2 now)
  | dispatch =>
    simp only [step] at h
    split at h
    · cases h
    · exact Nat.add_comm _ _ ▸ deliveringWork_of_dispatch h
  | collect i => exact Nat.add_comm _ _ ▸ deliveringWork_of_collect h
  | offer i => exact Nat.add_comm _ _ ▸ hoffer i h
  | wake i => exact Nat.add_comm _ _ ▸ deliveringWork_of_wake h
  | clearRunning =>
    cases h
    exact Nat.le_of_eq (Nat.zero_add _)
  | notify =>
    simp only [step] at h
    split at h
    · cases h
    · cases h
      exact Nat.le_of_eq (Nat.zero_add _)
  | elapse ms =>
    cases h
    exact Nat.le_of_eq (Nat.zero_add _)

theorem deliveringWork_of_elsewhere [Source ι] {t : Turn} (hm : p.maxRetries.toNat + 1 < 2 ^ 32)
    (hp : p.Tame) (helse : t ≠ .read ∧ ∀ now, t ≠ .flush now) (h : p.step t = some q) :
    [t].countP Turn.works + q.deliveringWork ≤ p.deliveringWork :=
  deliveringWork_of_aside (fun _ => deliveringWork_of_offer hm hp) helse h

end

/-! ## Reading -/

section
variable [Sink σ] {p q : Pipeline ListSource σ} {t : Turn} {ts : List Turn}

/-- What is queued or given up is no longer to be queued. -/
theorem unqueued_of_course (h : p.step t = some q)
    (hcourse : Course p (p.operation? t).toList (p.sourceFault? t).toList q) :
    q.unqueued + (counts .accepted (p.events (.turn t))).length +
      (counts .lost (p.events (.turn t))).length = p.unqueued := by
  have hinHand :=
    congrArg List.length (reading_of_advance (advance_of_move (m := .turn t) h)).inHand
  have hemitted := congrArg List.length (p.emitted_of_turn t)
  have hlater := Aggregator.outputs_congr (readingPart_of_step h) q.dueOperations
  rw [unqueued, unqueued, ← hcourse.operations, Aggregator.outputs_append, List.flatten_append,
    List.length_append, hlater, ← hemitted]
  simp only [List.length_append] at hinHand
  omega

omit [Sink σ] in
/-- A word count that is queued costs one turn less behind the queue than it did before. -/
theorem work_of_forwards {c : WordCount} {cs : List WordCount} {next : ReaderPhase}
    (left : p.reader = .forwarding (c :: cs) ∧ next = .forwarding cs ∨
      p.reader = .forwardingLast (c :: cs) ∧ next = .forwardingLast cs) :
    ({ p with queue := p.queue ++ [c], reader := next } : Pipeline ListSource σ).work <
      p.work := by
  have hinHand : p.remaining.length = next.remaining.length + 1 := by
    rcases left with ⟨phase, rfl⟩ | ⟨phase, rfl⟩
    · rw [remaining, phase]
      rfl
    · rw [remaining, phase]
      rfl
  have hdue : ({ p with queue := p.queue ++ [c], reader := next } :
      Pipeline ListSource σ).dueOperations = p.dueOperations := by
    rcases left with ⟨phase, rfl⟩ | ⟨phase, rfl⟩
    · simp only [dueOperations, reading, phase]
      rfl
    · simp only [dueOperations, reading, phase]
      rfl
  have hone : ({ p with queue := p.queue ++ [c], reader := next } :
      Pipeline ListSource σ).unqueued + 1 = p.unqueued := by
    rw [unqueued, unqueued, hdue, hinHand]
    simp only [remaining]
    omega
  have hreader : ({ p with queue := p.queue ++ [c], reader := next } :
      Pipeline ListSource σ).readerWork = p.readerWork := by
    rcases left with ⟨phase, rfl⟩ | ⟨phase, rfl⟩
    · simp only [readerWork, phase]
    · simp only [readerWork, phase]
  have hdelivering : ({ p with queue := p.queue ++ [c], reader := next } :
      Pipeline ListSource σ).deliveringWork =
      p.deliveringWork + (2 * p.maxRetries.toNat + 4) := by
    simp only [deliveringWork, held, maxRetries, settings, List.length_append,
      List.length_singleton, Nat.mul_succ]
    omega
  rw [work, work, hreader, hdelivering, ← hone, Nat.mul_succ]
  simp only [maxRetries, settings]
  omega

theorem work_of_read (hp : p.Unasked) (h : p.step .read = some q) : q.work < p.work := by
  have hmax : q.maxRetries = p.maxRetries :=
    maxRetries_of_advance (advance_of_move (m := .turn .read) h)
  -- Where nothing is queued, the reader has come forward.
  have hcomes (hreader : q.readerWork < p.readerWork) (hle : q.unqueued ≤ p.unqueued)
      (hqueue : q.queue = p.queue) (hdispatcher : q.dispatcher = p.dispatcher)
      (hactive : q.active = p.active) (hsettled : q.settled = p.settled) : q.work < p.work := by
    have hmul := Nat.mul_le_mul_left (2 * p.maxRetries.toNat + 5) hle
    rw [work, work, deliveringWork, deliveringWork, held, held, hmax, hqueue, hdispatcher, hactive,
      hsettled]
    omega
  have hlooks (hnone : p.remaining = []) (hreader : q.readerWork < p.readerWork)
      (hqueue : q.queue = p.queue) (hdispatcher : q.dispatcher = p.dispatcher)
      (hactive : q.active = p.active) (hsettled : q.settled = p.settled) : q.work < p.work := by
    have hlost : counts .lost (p.events (.turn .read)) = [] := by
      rw [lost_of_turn, hnone, ite_self]
    have hcourse := unqueued_of_course h (course_of_step hp rfl h hlost)
    exact hcomes hreader (by omega) hqueue hdispatcher hactive hsettled
  cases reads_of_step h with
  | aside elsewhere same running notice => exact absurd rfl elsewhere.1
  | begins phase =>
    exact hlooks (by rw [remaining, phase]; rfl) (by simp [readerWork, start, phase]) rfl rfl rfl
      rfl
  | checks phase =>
    refine hlooks (by rw [remaining, phase]; rfl) ?_ rfl rfl rfl rfl
    cases hrunning : p.running with
    | true => simp [readerWork, phase]
    | false =>
      simp only [readerWork, phase, Bool.false_eq_true, if_false]
      omega
  | proceeds phase unasked | goesOn phase | drains phase asked | returns phase done =>
    exact hlooks (by rw [remaining, phase]; rfl) (by simp [readerWork, phase]) rfl rfl rfl rfl
  | misses phase polled => exact absurd (congrArg Prod.fst polled) p.source.poll_ne_waiting
  | receives phase polled =>
    refine hlooks (by rw [remaining, phase]; rfl) ?_ rfl rfl rfl rfl
    simp only [readerWork, phase, (ListSource.poll_eq_record polled).1, List.length_cons]
    omega
  | heeds phase asked | ends phase polled | breaks phase polled =>
    refine hlooks (by rw [remaining, phase]; rfl) ?_ rfl rfl rfl rfl
    simp only [readerWork, phase]
    omega
  | forwards isOpen room left => exact work_of_forwards left
  | givesUp isClosed inHand =>
    refine hcomes ?_ (Nat.zero_le _) rfl rfl rfl rfl
    rcases inHand with phase | phase
    · simp only [readerWork, phase]
      omega
    · simp only [readerWork, phase]
      omega
  | finishes phase =>
    rcases phase with ⟨phase, -⟩ | phase
    · exact hlooks (by rw [remaining, phase]; rfl) (by simp [readerWork, phase]) rfl rfl rfl rfl
    · exact hlooks (by rw [remaining, phase]; rfl) (by simp [readerWork, phase]) rfl rfl rfl rfl

/-! ## Every turn -/

omit [Sink σ] in
theorem disturbs_of_works (ht : t.works = true) : t.disturbs = false := by
  cases t with
  | flush now => cases ht
  | clearRunning => cases ht
  | notify => cases ht
  | _ => rfl

theorem readerWork_of_step (helse : t ≠ .read ∧ ∀ now, t ≠ .flush now) (h : p.step t = some q) :
    q.readerWork = p.readerWork := by
  cases reads_of_step h with
  | aside elsewhere same running notice => rw [readerWork, readerWork, same.reader, same.source]
  | flushes phase due => exact absurd rfl (helse.2 _)
  | _ => exact absurd rfl helse.1

theorem work_of_step (hm : p.maxRetries.toNat + 1 < 2 ^ 32) (htame : p.Tame) (hp : p.Unasked)
    (ht : t.works = true) (h : p.step t = some q) : q.work < p.work := by
  by_cases hread : t = .read
  · subst hread
    exact work_of_read hp h
  · have helse : t ≠ .read ∧ ∀ now, t ≠ .flush now :=
      ⟨hread, fun now hflush => by rw [hflush] at ht; cases ht⟩
    have hlost : counts .lost (p.events (.turn t)) = [] := by
      rw [lost_of_turn, if_neg fun hread => helse.1 hread.1]
    have hcourse := unqueued_of_course h (course_of_step hp (disturbs_of_works ht) h hlost)
    have hmul : (2 * p.maxRetries.toNat + 5) * q.unqueued ≤
        (2 * p.maxRetries.toNat + 5) * p.unqueued := Nat.mul_le_mul_left _ (by omega)
    have hless := deliveringWork_of_elsewhere hm htame helse h
    rw [List.countP_cons_of_pos ht, List.countP_nil] at hless
    rw [work, work, readerWork_of_step helse h,
      maxRetries_of_advance (advance_of_move (m := .turn t) h)]
    omega

/-- An undisturbed run has no more turns but the passing of time than work when it begins. -/
theorem works_of_steps (hm : p.maxRetries.toNat + 1 < 2 ^ 32) (htame : p.Tame) (hp : p.Unasked)
    (hts : Undisturbed ts) (h : p.steps ts = some q) :
    (ts.filter Turn.works).length + q.work ≤ p.work := by
  induction ts generalizing p with
  | nil =>
    cases h
    simp
  | cons t ts ih =>
    obtain ⟨r, hr, hq, -⟩ := steps_cons h
    obtain ⟨ht, hrest⟩ := List.forall_mem_cons.1 hts
    have hadvance := advance_of_move (m := .turn t) hr
    have hlater := ih (maxRetries_of_advance hadvance ▸ hm) (tame_of_advance htame hadvance)
      (unasked_of_step hp ht hr) hrest hq
    by_cases hworks : t.works = true
    · have hless := work_of_step hm htame hp hworks hr
      rw [List.filter_cons_of_pos hworks, List.length_cons]
      omega
    · rw [List.filter_cons_of_neg hworks]
      cases t with
      | elapse ms =>
        cases hr
        exact hlater
      | flush now => cases ht
      | clearRunning => cases ht
      | notify => cases ht
      | _ => exact absurd rfl hworks

end

end Pipeline

end WindowTally
