import WindowTally.Proofs.Events

/-!
# What a move does

`Advance` lists what a move can do to a pipeline and what happens to word counts in
it, and `advance_of_move` says that the list is complete. Everything that runs keep
is proved from these cases (`moves_induction`), so no other proof looks into the
steps of the parties.
-/
namespace WindowTally.Pipeline

open Event (counts each)

variable {ι σ : Type}

/-- Both have the same on the delivering side. -/
structure SameDelivering (p q : Pipeline ι σ) : Prop where
  settings : q.settings = p.settings
  sink : q.sink = p.sink
  queue : q.queue = p.queue
  dispatcher : q.dispatcher = p.dispatcher
  active : q.active = p.active
  settled : q.settled = p.settled
  failure : q.failure = p.failure

/-- What a move can do, and what happens in it. -/
inductive Advance [Sink σ] (p : Pipeline ι σ) (m : Move) :
    List Event → Pipeline ι σ → Prop where
  /-- The reader looked around, a handle did something, or time passed. -/
  | rests {q : Pipeline ι σ} (same : SameDelivering p q) (aggregator : q.aggregator = p.aggregator)
      (inHand : q.remaining = p.remaining)
      (result : q.outcome? = p.outcome? ∨ p.dispatcher = .finished) : Advance p m [] q
  /-- The reader carried out an operation on the aggregator. -/
  | operates (op : Operation) {source : ι} {nextFlush : Nat} {next : ReaderPhase}
      (inHand : p.remaining = []) (going : p.outcome? = none)
      (taken : next = .forwarding (p.aggregator.operate op).1 ∨
        next = .forwardingLast (p.aggregator.operate op).1) :
      Advance p m (each .emitted (p.aggregator.operate op).1)
        { p with
          aggregator := (p.aggregator.operate op).2
          source := source
          nextFlush := nextFlush
          reader := next }
  /-- The queue took the reader's next word count. -/
  | forwards {c : WordCount} {cs : List WordCount} {next : ReaderPhase}
      (isOpen : p.queueClosed = false) (room : p.queue.length < p.queueSize)
      (inHand : p.remaining = c :: cs) (left : next = .forwarding cs ∨ next = .forwardingLast cs) :
      Advance p m [⟨.accepted, c⟩] { p with queue := p.queue ++ [c], reader := next }
  /-- The queue refused the reader's next word count. -/
  | givesUp {c : WordCount} {cs : List WordCount} (isClosed : p.queueClosed = true)
      (inHand : p.remaining = c :: cs) :
      Advance p m (⟨.refused, c⟩ :: each .lost (c :: cs)) (p.finish (.error (.delivery .closed)))
  /-- The queue took a word count from someone else. -/
  | takesIn {c : WordCount} (hand : m = .hand c) (isOpen : p.queueClosed = false)
      (room : p.queue.length < p.queueSize) (going : p.readerGone = false) :
      Advance p m [⟨.accepted, c⟩] { p with queue := p.queue ++ [c] }
  /-- The queue refused a word count from someone else. -/
  | turnsAway {c : WordCount} (hand : m = .hand c) (isClosed : p.queueClosed = true) :
      Advance p m [⟨.refused, c⟩] p
  /-- The dispatcher took a word count from the queue. -/
  | takes {c : WordCount} {cs : List WordCount} {next : DispatcherPhase}
      (queue : p.queue = c :: cs)
      (phase : p.dispatcher = .serving ∧ next = .holding c ∨
        p.dispatcher = .emptying ∧ next = .holdingLast c) :
      Advance p m [] { p with queue := cs, dispatcher := next }
  /-- The dispatcher started the delivery of the word count that it held. -/
  | starts {c : WordCount} {next : DispatcherPhase}
      (phase : p.dispatcher = .holding c ∧ next = .serving ∨
        p.dispatcher = .holdingLast c ∧ next = .emptying)
      (slot : p.active.length < p.slots) :
      Advance p m [⟨.started, c⟩]
        { p with active := p.active ++ [{ count := c }], dispatcher := next }
  /-- The dispatcher found that nothing more will be queued. -/
  | closes (phase : p.dispatcher = .serving) (queue : p.queue = []) (gone : p.readerGone = true) :
      Advance p m [] { p with dispatcher := .emptying }
  /-- The dispatcher found the closed queue empty. -/
  | joins (phase : p.dispatcher = .emptying) (queue : p.queue = []) :
      Advance p m [] { p with dispatcher := .joining }
  /-- The dispatcher had collected all deliveries. -/
  | finishes (phase : p.dispatcher = .joining) (active : p.active = []) (settled : p.settled = []) :
      Advance p m [] { p with dispatcher := .finished }
  /-- The dispatcher collected an ended delivery; the first failure is kept. -/
  | collects {i : Nat} {outcome : Except DeliveryFault Unit} {next : DispatcherPhase}
      (ended : p.settled[i]? = some outcome)
      (phase : p.dispatcher = .serving ∧
          next = (if (p.failure.or (fault? outcome)).isSome then .emptying else .serving) ∨
        p.dispatcher = .joining ∧ next = .joining) :
      Advance p m []
        { p with
          settled := p.settled.eraseIdx i
          failure := p.failure.or (fault? outcome)
          dispatcher := next }
  /-- A delivery offered its word count and ended. -/
  | settles {i : Nat} {d : Delivery} {outcome : Except DeliveryFault Unit}
      (running : p.active[i]? = some d) (phase : d.phase = .offering)
      (ended : (p.answered d).phase = .settled outcome) :
      Advance p m [⟨.attempted, d.count⟩, ⟨ending outcome, d.count⟩]
        { p with
          sink := (Sink.deliver p.sink d.count).2
          aggregator := { p.aggregator with stats := countAnswer p.stats (p.answered d) }
          active := p.active.eraseIdx i
          settled := p.settled ++ [outcome] }
  /-- A delivery offered its word count and pauses. -/
  | retries {i : Nat} {d : Delivery} {wake : Nat} (running : p.active[i]? = some d)
      (phase : d.phase = .offering) (pauses : (p.answered d).phase = .pausing wake) :
      Advance p m [⟨.attempted, d.count⟩]
        { p with
          sink := (Sink.deliver p.sink d.count).2
          aggregator := { p.aggregator with stats := countAnswer p.stats (p.answered d) }
          active := p.active.set i (p.answered d) }
  /-- The pause of a delivery was over. -/
  | wakes {i : Nat} {d : Delivery} {t : Nat} (running : p.active[i]? = some d)
      (phase : d.phase = .pausing t) (due : t ≤ p.clock) :
      Advance p m [] { p with active := p.active.set i { d with phase := .offering } }

theorem enqueue_eq_ok {p q : Pipeline ι σ} {c : WordCount} (h : p.enqueue c = some (.ok q)) :
    p.queueClosed = false ∧ p.queue.length < p.queueSize ∧
      q = { p with queue := p.queue ++ [c] } := by
  unfold enqueue at h
  split at h
  · cases h
  · next hopen =>
    split at h
    · next hroom =>
      cases h
      exact ⟨Bool.not_eq_true _ ▸ hopen, hroom, rfl⟩
    · cases h

theorem enqueue_eq_error {p : Pipeline ι σ} {c : WordCount} {fault : DeliveryFault}
    (h : p.enqueue c = some (.error fault)) : p.queueClosed = true ∧ fault = .closed := by
  unfold enqueue at h
  split at h
  · next hclosed =>
    cases h
    exact ⟨hclosed, rfl⟩
  · split at h <;> cases h

theorem forwarded_eq_nil {p : Pipeline ι σ} (h : p.remaining = []) : p.forwarded = [] := by
  rw [forwarded, h]

theorem note_eq (p : Pipeline ι σ) (outcome : Except DeliveryFault Unit) :
    p.note outcome = { p with failure := p.failure.or (fault? outcome) } := by
  cases outcome with
  | ok u => simp only [note, fault?, Option.or_none]
  | error fault =>
    cases hfailure : p.failure with
    | none => simp only [note, hfailure, fault?, Option.none_or]
    | some first =>
      simp only [note, hfailure, Option.some_or]
      rw [← hfailure]

section
variable [Sink σ] {p q : Pipeline ι σ} {m : Move}

theorem advance_of_collect {i : Nat} (h : p.collect i = some q) : Advance p m [] q := by
  unfold collect at h
  split at h
  · cases h
  · next outcome hended =>
    simp only at h
    split at h
    · next hphase =>
      cases h
      rw [note_eq]
      have hcollects := Advance.collects (m := m) hended (.inl ⟨hphase, rfl⟩)
      split
      · next hfailed =>
        rw [if_pos hfailed] at hcollects
        exact hcollects
      · next hfailed =>
        rw [if_neg hfailed, ← hphase] at hcollects
        exact hcollects
    · next hphase =>
      cases h
      have hcollects := Advance.collects (m := m) hended (.inr ⟨hphase, hphase⟩)
      rw [note_eq]
      exact hcollects
    · cases h

/-- An answer ends a delivery or makes it pause. -/
theorem answered_phase (p : Pipeline ι σ) (d : Delivery) :
    (∃ outcome, (p.answered d).phase = .settled outcome) ∨
      ∃ wake, (p.answered d).phase = .pausing wake := by
  unfold answered Delivery.resolve
  cases (Sink.deliver p.sink d.count).1 with
  | ok u => exact .inl ⟨_, rfl⟩
  | error fault =>
    simp only
    split
    · exact .inr ⟨_, rfl⟩
    · exact .inl ⟨_, rfl⟩

theorem advance_of_wake {i : Nat} (h : p.wake i = some q) : Advance p m [] q := by
  unfold wake at h
  split at h
  · next d hrunning =>
    split at h
    · next t hphase =>
      split at h
      · next hdue =>
        cases h
        exact .wakes hrunning hphase hdue
      · cases h
    · cases h
  · cases h

theorem advance_of_hand [Source ι] {c : WordCount} (h : p.move (.hand c) = some q) :
    Advance p (.hand c) (p.handed c) q := by
  simp only [move] at h
  split at h
  · cases h
  · next hgone =>
    unfold handed
    split at h
    · next q' hq =>
      cases h
      obtain ⟨hopen, hroom, rfl⟩ := enqueue_eq_ok hq
      exact .takesIn rfl hopen hroom (Bool.not_eq_true _ ▸ hgone)
    · next fault hq =>
      cases h
      exact .turnsAway rfl (enqueue_eq_error hq).1
    · cases h

/-- Forwarding is a hand-over by the reader. -/
theorem advance_of_forward {c : WordCount} {cs : List WordCount} {next : ReaderPhase}
    (inHand : p.remaining = c :: cs) (left : next = .forwarding cs ∨ next = .forwardingLast cs)
    (h : p.forward c next = some q) : Advance p m p.forwarded q := by
  unfold forward at h
  unfold forwarded handed
  rw [inHand]
  split at h
  · next q' hq =>
    cases h
    obtain ⟨hopen, hroom, rfl⟩ := enqueue_eq_ok hq
    simp only [hq, hopen]
    exact .forwards hopen hroom inHand left
  · next fault hq =>
    cases h
    obtain ⟨hclosed, rfl⟩ := enqueue_eq_error hq
    simp only [hq, hclosed]
    exact .givesUp hclosed inHand
  · cases h

/-- Going on to another phase without anything in hand, the reader only looks around. -/
theorem advance_of_phase {es : List Event} (hes : es = []) (inHand : p.remaining = [])
    (same : SameDelivering p q) (aggregator : q.aggregator = p.aggregator)
    (hq : q.remaining = []) (result : q.outcome? = p.outcome? ∨ p.dispatcher = .finished) :
    Advance p m es q := by
  rw [hes]
  exact .rests same aggregator (hq.trans inHand.symm) result

variable [Source ι]

theorem advance_of_poll (hreader : p.reader = .polling) :
    Advance p m (each .emitted (p.emits .read)) p.poll := by
  have hnone : p.outcome? = none := by rw [outcome?, hreader]
  have inHand : p.remaining = [] := by rw [remaining, hreader]; rfl
  unfold poll emits operation?
  simp only [hreader]
  cases hpoll : Source.poll p.source with
  | mk polled source =>
    cases polled with
    | record r => exact .operates (.record r) inHand hnone (.inl rfl)
    | ended =>
      exact advance_of_phase rfl inHand ⟨rfl, rfl, rfl, rfl, rfl, rfl, rfl⟩ rfl rfl
        (.inl hnone.symm)
    | failed fault =>
      exact advance_of_phase rfl inHand ⟨rfl, rfl, rfl, rfl, rfl, rfl, rfl⟩ rfl rfl
        (.inl hnone.symm)
    | waiting =>
      exact advance_of_phase rfl inHand ⟨rfl, rfl, rfl, rfl, rfl, rfl, rfl⟩ rfl rfl
        (.inl hnone.symm)

theorem advance_of_close (hreader : p.reader = .closing) :
    Advance p m (each .emitted (p.emits .read)) p.close := by
  have hnone : p.outcome? = none := by rw [outcome?, hreader]
  have inHand : p.remaining = [] := by rw [remaining, hreader]; rfl
  unfold close emits operation?
  simp only [hreader]
  by_cases hflush : p.settings.flushOnClose = true
  · rw [if_pos hflush, if_pos hflush]
    exact .operates .drain inHand hnone (.inr rfl)
  · rw [if_neg hflush, if_neg hflush]
    exact advance_of_phase rfl inHand ⟨rfl, rfl, rfl, rfl, rfl, rfl, rfl⟩ rfl rfl (.inl hnone.symm)

theorem advance_of_read (h : p.read = some q) : Advance p m (p.events (.turn .read)) q := by
  have hquiet (hemits : p.operation? .read = none) (inHand : p.remaining = []) :
      p.events (.turn .read) = [] := by
    simp [events_read, emits, hemits, forwarded_eq_nil inHand, each]
  have hforward (hemits : p.operation? .read = none) :
      p.events (.turn .read) = p.forwarded := by
    simp [events_read, emits, hemits, each]
  have htake (inHand : p.remaining = []) :
      p.events (.turn .read) = each .emitted (p.emits .read) := by
    simp [events_read, forwarded_eq_nil inHand]
  unfold read at h
  cases hreader : p.reader with
  | idle =>
    have inHand : p.remaining = [] := by rw [remaining, hreader]; rfl
    rw [hreader] at h
    cases h
    refine advance_of_phase (hquiet (by rw [operation?, hreader]) inHand) inHand
      ⟨rfl, rfl, rfl, rfl, rfl, rfl, rfl⟩ rfl rfl (.inl ?_)
    rw [outcome?, outcome?, hreader]
    rfl
  | checking =>
    have inHand : p.remaining = [] := by rw [remaining, hreader]; rfl
    rw [hreader] at h
    cases h
    refine advance_of_phase (hquiet (by rw [operation?, hreader]) inHand) inHand
      ⟨rfl, rfl, rfl, rfl, rfl, rfl, rfl⟩ rfl ?_ (.inl ?_)
    · rw [remaining]
      cases p.running <;> rfl
    · rw [outcome?, outcome?, hreader]
      cases p.running <;> rfl
  | waiting =>
    have hnone : p.outcome? = none := by rw [outcome?, hreader]
    have inHand : p.remaining = [] := by rw [remaining, hreader]; rfl
    have hes := hquiet (by rw [operation?, hreader]) inHand
    rw [hreader] at h
    simp only at h
    split at h
    · cases h
      exact advance_of_phase hes inHand ⟨rfl, rfl, rfl, rfl, rfl, rfl, rfl⟩ rfl rfl
        (.inl hnone.symm)
    · split at h
      · cases h
        exact advance_of_phase hes inHand ⟨rfl, rfl, rfl, rfl, rfl, rfl, rfl⟩ rfl rfl
          (.inl hnone.symm)
      · cases h
  | polling =>
    rw [hreader] at h
    simp only at h
    split at h
    · cases h
    · cases h
      rw [htake (by rw [remaining, hreader]; rfl)]
      exact advance_of_poll hreader
  | closing =>
    rw [hreader] at h
    cases h
    rw [htake (by rw [remaining, hreader]; rfl)]
    exact advance_of_close hreader
  | forwarding counts =>
    have hnone : p.outcome? = none := by rw [outcome?, hreader]
    have inHand : p.remaining = counts := by rw [remaining, hreader]; rfl
    have hemits : p.operation? .read = none := by rw [operation?, hreader]
    rw [hreader] at h
    cases counts with
    | nil =>
      cases h
      exact advance_of_phase (hquiet hemits inHand) inHand ⟨rfl, rfl, rfl, rfl, rfl, rfl, rfl⟩ rfl
        rfl (.inl hnone.symm)
    | cons c cs =>
      rw [hforward hemits]
      exact advance_of_forward inHand (.inl rfl) h
  | forwardingLast counts =>
    have hnone : p.outcome? = none := by rw [outcome?, hreader]
    have inHand : p.remaining = counts := by rw [remaining, hreader]; rfl
    have hemits : p.operation? .read = none := by rw [operation?, hreader]
    rw [hreader] at h
    cases counts with
    | nil =>
      cases h
      exact advance_of_phase (hquiet hemits inHand) inHand ⟨rfl, rfl, rfl, rfl, rfl, rfl, rfl⟩ rfl
        rfl (.inl hnone.symm)
    | cons c cs =>
      rw [hforward hemits]
      exact advance_of_forward inHand (.inr rfl) h
  | finishing reading =>
    have inHand : p.remaining = [] := by rw [remaining, hreader]; rfl
    rw [hreader] at h
    simp only at h
    split at h
    · next hfinished =>
      cases h
      exact advance_of_phase (hquiet (by rw [operation?, hreader]) inHand) inHand
        ⟨rfl, rfl, rfl, rfl, rfl, rfl, rfl⟩ rfl rfl (.inr hfinished)
    · cases h
  | returned outcome =>
    rw [hreader] at h
    cases h

theorem advance_of_flush {now : Millis} (h : p.flush now = some q) :
    Advance p m (p.events (.turn (.flush now))) q := by
  unfold flush at h
  split at h
  · next hreader =>
    split at h
    · cases h
      refine .operates (.flush now) ?_ ?_ (.inl rfl)
      · rw [remaining, hreader]
        rfl
      · rw [outcome?, hreader]
    · cases h
  · cases h

theorem advance_of_dispatch (h : p.dispatch = some q) :
    Advance p m (p.events (.turn .dispatch)) q := by
  have hlaunch {c : WordCount} {next : DispatcherPhase}
      (phase : p.dispatcher = .holding c ∧ next = .serving ∨
        p.dispatcher = .holdingLast c ∧ next = .emptying)
      (h : p.launch c next = some q) : Advance p m [⟨.started, c⟩] q := by
    unfold launch at h
    split at h
    · next hslot =>
      cases h
      exact .starts phase hslot
    · cases h
  unfold dispatch at h
  rw [events_dispatch, held]
  cases hphase : p.dispatcher with
  | serving =>
    rw [hphase] at h
    simp only at h
    split at h
    · next c cs hqueue =>
      cases h
      exact .takes hqueue (.inl ⟨hphase, rfl⟩)
    · next hqueue =>
      split at h
      · next hgone =>
        cases h
        exact .closes hphase hqueue hgone
      · cases h
  | holding c =>
    rw [hphase] at h
    exact hlaunch (.inl ⟨hphase, rfl⟩) h
  | emptying =>
    rw [hphase] at h
    simp only at h
    split at h
    · next c cs hqueue =>
      cases h
      exact .takes hqueue (.inr ⟨hphase, rfl⟩)
    · next hqueue =>
      cases h
      exact .joins hphase hqueue
  | holdingLast c =>
    rw [hphase] at h
    exact hlaunch (.inr ⟨hphase, rfl⟩) h
  | joining =>
    rw [hphase] at h
    simp only at h
    split at h
    · next hall =>
      cases h
      rw [Bool.and_eq_true, List.isEmpty_iff, List.isEmpty_iff] at hall
      exact .finishes hphase hall.1 hall.2
    · cases h
  | finished =>
    rw [hphase] at h
    cases h

theorem advance_of_offer {i : Nat} (h : p.offer i = some q) :
    Advance p m (p.events (.turn (.offer i))) q := by
  unfold offer at h
  split at h
  · next d hrunning =>
    split at h
    · next hphase =>
      have hq : q = ({ p with
          sink := (Sink.deliver p.sink d.count).2
          aggregator := { p.aggregator with stats := countAnswer p.stats (p.answered d) } }).replace
            i (p.answered d) := by
        cases h
        rfl
      rw [hq, events_offer p hrunning]
      rcases p.answered_phase d with ⟨outcome, hended⟩ | ⟨wake, hpauses⟩
      · simp only [offered, replace, Delivery.outcome?, hended]
        exact .settles hrunning hphase hended
      · simp only [offered, replace, Delivery.outcome?, hpauses]
        exact .retries hrunning hphase hpauses
    · cases h
  · cases h

/-- Every move does one of the things that `Advance` lists. -/
theorem advance_of_move (h : p.move m = some q) : Advance p m (p.events m) q := by
  cases m with
  | hand c => exact advance_of_hand h
  | turn t =>
    cases t with
    | read => exact advance_of_read h
    | flush now => exact advance_of_flush h
    | dispatch =>
      simp only [move, step] at h
      split at h
      · cases h
      · exact advance_of_dispatch h
    | collect i => exact advance_of_collect h
    | offer i => exact advance_of_offer h
    | wake i => exact advance_of_wake h
    | clearRunning =>
      cases h
      exact .rests ⟨rfl, rfl, rfl, rfl, rfl, rfl, rfl⟩ rfl rfl (.inl rfl)
    | notify =>
      simp only [move, step] at h
      split at h
      · cases h
      · cases h
        exact .rests ⟨rfl, rfl, rfl, rfl, rfl, rfl, rfl⟩ rfl rfl (.inl rfl)
    | elapse ms =>
      cases h
      exact .rests ⟨rfl, rfl, rfl, rfl, rfl, rfl, rfl⟩ rfl rfl (.inl rfl)

/-! ### What stays the same -/

omit [Source ι] in
theorem settings_of_advance {es : List Event} (h : Advance p m es q) :
    q.settings = p.settings := by
  cases h with
  | rests same aggregator inHand result => exact same.settings
  | operates op inHand going taken => exact Aggregator.settings_operate p.aggregator op
  | _ => rfl

omit [Source ι] in
theorem windows_of_advance {es : List Event} (h : Advance p m es q) :
    q.aggregator.windows = p.aggregator.windows := by
  cases h with
  | rests same aggregator inHand result => rw [aggregator]
  | operates op inHand going taken => exact Aggregator.windows_operate p.aggregator op
  | _ => rfl

theorem settings_of_moves {ms : List Move} (h : p.moves ms = some q) :
    q.settings = p.settings :=
  run_induction (P := fun _ q => q.settings = p.settings) rfl
    (fun _ hr hq => (settings_of_advance (advance_of_move hr)).trans hq) h

/-- What every `Advance` keeps, every run keeps. -/
theorem moves_induction {P : Pipeline ι σ → List Event → Pipeline ι σ → Prop}
    (nil : ∀ p, P p [] p)
    (cons : ∀ {p m es q es' r}, Advance p m es q → P q es' r → P p (es ++ es') r)
    {ms : List Move} (h : p.moves ms = some q) : P p (p.history ms) q := by
  induction ms generalizing p with
  | nil =>
    cases h
    exact nil _
  | cons m ms ih =>
    obtain ⟨r, hr, hq, hhistory⟩ := moves_cons h
    rw [hhistory]
    exact cons (advance_of_move hr) (ih hq)

end

end WindowTally.Pipeline
