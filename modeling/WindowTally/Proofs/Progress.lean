import WindowTally.Proofs.Attempts

/-!
# No party waits for nothing

Each party may have to wait: the reader for room in the queue or for the dispatcher, the
dispatcher for something to take, for a free slot or for deliveries to end, a delivery
for the end of its pause. They never wait for each other in a circle (`never_stuck`): as
long as a run is not over, some party can go on, at once or after the pause of a delivery,
unless the reader merely waits for its source, a flush or a request to stop. Who is waited
for is found from the reader on: a full queue has the dispatcher to empty it, a dispatcher
without a free slot has a delivery in each, and a delivery waits for nobody.
-/
namespace WindowTally

/-- Whether the reader, other than by a flush, the dispatcher or a delivery goes on in a turn. -/
def Turn.works : Turn → Bool
  | .read | .dispatch | .collect _ | .offer _ | .wake _ => true
  | _ => false

namespace Pipeline

variable {ι σ : Type} [Source ι] [Sink σ] {p q : Pipeline ι σ}

/-- Some party can go on, perhaps after some time. -/
def GoesOn (p : Pipeline ι σ) : Prop :=
  ∃ ms t q, t.works = true ∧ p.steps [.elapse ms, t] = some q

/-- Some party can go on at once, or some delivery pauses and can go on after its pause. -/
def Stirs (p : Pipeline ι σ) : Prop :=
  (∃ t q, t.works = true ∧ p.step t = some q) ∨ ∃ i ms q, p.steps [.elapse ms, .wake i] = some q

theorem Stirs.goesOn (h : p.Stirs) : p.GoesOn := by
  rcases h with ⟨t, q, ht, hstep⟩ | ⟨i, ms, q, hsteps⟩
  · refine ⟨0, t, q, ht, ?_⟩
    have hstay : p.step (.elapse 0) = some p := rfl
    simp only [steps, hstay, hstep, Option.bind_some]
  · exact ⟨ms, .wake i, q, rfl, hsteps⟩

theorem stirs_of_step {t : Turn} (ht : t.works = true) (h : p.step t = some q) : p.Stirs :=
  .inl ⟨t, q, ht, h⟩

/-- A running delivery can go on once its pause is over. -/
theorem stirs_of_active (hp : p.Tame) (hactive : p.active ≠ []) : p.Stirs := by
  obtain ⟨d, ds, hsplit⟩ := List.exists_cons_of_ne_nil hactive
  have hfirst : p.active[0]? = some d := by rw [hsplit]; rfl
  have hgoing := (hp d (hsplit ▸ List.mem_cons_self)).1
  cases hphase : d.phase with
  | offering =>
    have hoffer : ∃ q, p.step (.offer 0) = some q := by
      simp only [step, offer, hfirst, hphase]
      exact ⟨_, rfl⟩
    obtain ⟨q, hq⟩ := hoffer
    exact stirs_of_step rfl hq
  | pausing t =>
    have hwake : ∃ q, p.steps [.elapse t, .wake 0] = some q := by
      simp only [steps, step, wake, hfirst, hphase, Option.bind_some,
        if_pos (Nat.le_add_left t p.clock)]
      exact ⟨_, rfl⟩
    obtain ⟨q, hq⟩ := hwake
    exact .inr ⟨0, t, q, hq⟩
  | settled outcome => simp [Delivery.outcome?, hphase] at hgoing

theorem stirs_of_dispatch (hreader : p.reader ≠ .idle) (h : p.dispatch = some q) : p.Stirs := by
  have hstep : p.step .dispatch = p.dispatch := by
    cases hphase : p.reader with
    | idle => exact absurd hphase hreader
    | _ => simp [step, hphase]
  exact stirs_of_step rfl (hstep.trans h)

/-- A dispatcher that holds a word count starts its delivery, or some delivery that takes up a slot
can go on. -/
theorem stirs_of_held (hp : p.Tame) (hreader : p.reader ≠ .idle) {c : WordCount}
    {next : DispatcherPhase} (hlaunch : p.dispatch = p.launch c next) : p.Stirs := by
  by_cases hslot : p.active.length < p.slots
  · rw [launch, if_pos hslot] at hlaunch
    exact stirs_of_dispatch hreader hlaunch
  · refine stirs_of_active hp fun hnone => hslot ?_
    rw [hnone, slots]
    exact Nat.lt_of_lt_of_le Nat.zero_lt_one (Nat.le_max_right _ _)

/-- A dispatcher that is not done, and has something to take unless the queue may still be fed, does
not wait for nothing. -/
theorem stirs_of_dispatcher (hp : p.Tame) (hreader : p.reader ≠ .idle)
    (hbusy : p.dispatcher ≠ .finished)
    (hserving : p.dispatcher = .serving → p.queue ≠ [] ∨ p.readerGone = true) : p.Stirs := by
  cases hphase : p.dispatcher with
  | serving =>
    cases hqueue : p.queue with
    | nil =>
      have hgone := (hserving hphase).resolve_left (not_not.2 hqueue)
      exact stirs_of_dispatch (q := { p with dispatcher := .emptying }) hreader
        (by simp [dispatch, hphase, hqueue, hgone])
    | cons c cs =>
      exact stirs_of_dispatch (q := { p with queue := cs, dispatcher := .holding c }) hreader
        (by simp [dispatch, hphase, hqueue])
  | holding c => exact stirs_of_held hp hreader (by rw [dispatch, hphase])
  | emptying =>
    cases hqueue : p.queue with
    | nil =>
      exact stirs_of_dispatch (q := { p with dispatcher := .joining }) hreader
        (by simp [dispatch, hphase, hqueue])
    | cons c cs =>
      exact stirs_of_dispatch (q := { p with queue := cs, dispatcher := .holdingLast c }) hreader
        (by simp [dispatch, hphase, hqueue])
  | holdingLast c => exact stirs_of_held hp hreader (by rw [dispatch, hphase])
  | joining =>
    by_cases hactive : p.active = []
    · cases hsettled : p.settled with
      | nil =>
        exact stirs_of_dispatch (q := { p with dispatcher := .finished }) hreader
          (by simp [dispatch, hphase, hactive, hsettled])
      | cons outcome outcomes =>
        have hcollect : ∃ q, p.step (.collect 0) = some q := by
          simp only [step, collect, hsettled, List.getElem?_cons_zero, hphase]
          exact ⟨_, rfl⟩
        obtain ⟨q, hq⟩ := hcollect
        exact stirs_of_step rfl hq
    · exact stirs_of_active hp hactive
  | finished => exact absurd hphase hbusy

/-- A reader with something in hand queues it, is refused, or waits for a dispatcher that goes
on. -/
theorem stirs_of_forward (hp : p.Tame) (hreader : p.reader ≠ .idle) {c : WordCount}
    {next : ReaderPhase} (hforward : p.read = p.forward c next) : p.Stirs := by
  have hread {q : Pipeline ι σ} (h : p.forward c next = some q) : p.Stirs :=
    stirs_of_step (t := .read) rfl (hforward.trans h)
  by_cases hclosed : p.queueClosed = true
  · exact hread (by rw [forward, enqueue, if_pos hclosed])
  by_cases hroom : p.queue.length < p.queueSize
  · exact hread (by rw [forward, enqueue, if_neg hclosed, if_pos hroom])
  refine stirs_of_dispatcher hp hreader (fun hdone => hclosed (by rw [queueClosed, hdone]))
    fun _ => .inl fun hempty => hroom ?_
  rw [hempty, queueSize]
  exact Nat.lt_of_lt_of_le Nat.zero_lt_one (Nat.le_max_right _ _)

/-- The reader merely waits: nobody has asked to stop, no flush is due, and the source has
nothing. -/
def Listens (p : Pipeline ι σ) : Prop :=
  p.reader = .waiting ∧ p.notice = false ∧ p.flushDue = false ∧ p.sourceReady = false

/-- As long as a run is not over, some party can go on, unless the reader merely waits or is about
to flush. -/
theorem stirs_of_going (hp : p.Tame) (hover : p.outcome? = none) :
    p.Stirs ∨ p.Listens ∨ (p.reader = .polling ∧ p.flushDue = true) := by
  have hread {q : Pipeline ι σ} (h : p.read = some q) : p.Stirs :=
    stirs_of_step (t := .read) rfl h
  cases hreader : p.reader with
  | idle => exact .inl (hread (by rw [read, hreader]))
  | checking => exact .inl (hread (by rw [read, hreader]))
  | waiting =>
    by_cases hnotice : p.notice = true
    · exact .inl (hread (by simp only [read, hreader, if_pos hnotice]; rfl))
    by_cases hready : (p.flushDue || p.sourceReady) = true
    · exact .inl (hread (by simp only [read, hreader, if_neg hnotice, if_pos hready]; rfl))
    · rw [Bool.not_eq_true, Bool.or_eq_false_iff] at hready
      exact .inr (.inl ⟨hreader, Bool.not_eq_true _ ▸ hnotice, hready.1, hready.2⟩)
  | polling =>
    by_cases hdue : p.flushDue = true
    · exact .inr (.inr ⟨rfl, hdue⟩)
    · exact .inl (hread (by simp only [read, hreader, if_neg hdue]; rfl))
  | forwarding counts =>
    cases counts with
    | nil => exact .inl (hread (by rw [read, hreader]))
    | cons c cs => exact .inl (stirs_of_forward hp (by simp [hreader]) (by rw [read, hreader]))
  | closing => exact .inl (hread (by rw [read, hreader]))
  | forwardingLast counts =>
    cases counts with
    | nil => exact .inl (hread (by rw [read, hreader]))
    | cons c cs => exact .inl (stirs_of_forward hp (by simp [hreader]) (by rw [read, hreader]))
  | finishing reading =>
    by_cases hdone : p.dispatcher = .finished
    · exact .inl (hread (by rw [read, hreader, hdone]))
    · refine .inl (stirs_of_dispatcher hp (by simp [hreader]) hdone fun _ => .inr ?_)
      rw [readerGone, hreader]
  | returned outcome => simp [outcome?, hreader] at hover

theorem goesOn_of_going (hp : p.Tame) (hover : p.outcome? = none) :
    p.GoesOn ∨ p.Listens ∨ (p.reader = .polling ∧ p.flushDue = true) :=
  (stirs_of_going hp hover).imp_left Stirs.goesOn

/-- A reader that is about to flush can do so whatever the wall clock shows. -/
theorem stirs_or_flushes (hp : p.Tame) (hover : p.outcome? = none) (hbusy : ¬ p.Listens) :
    p.Stirs ∨ ∀ now, ∃ q, p.step (.flush now) = some q := by
  rcases stirs_of_going hp hover with hstirs | hlistens | ⟨hreader, hdue⟩
  · exact .inl hstirs
  · exact absurd hlistens hbusy
  · refine .inr fun now => ?_
    simp only [step, flush, hreader, hdue, if_true]
    exact ⟨_, rfl⟩

/-- No order of turns leads to where every party waits for another. In every state that a run
reaches and that is not its end, either the reader merely waits, or some party can take a turn:
at once, be it a flush whatever the wall clock shows, or after the pause of a delivery. -/
theorem never_stuck (hp : p.Fresh) {ts : List Turn} (hrun : p.steps ts = some q)
    (hgoing : q.outcome? = none) (hbusy : ¬ q.Listens) :
    q.Stirs ∨ ∀ now, ∃ r, q.step (.flush now) = some r :=
  stirs_or_flushes (tame_of_moves hp.tame ((moves_turn ts).trans hrun)) hgoing hbusy

/-- The steps of `stuckFirst` up to where `a` is being delivered, `b` held and `c` queued: the queue
is full, no slot is free, and neither the reader nor the dispatcher can go on. -/
def stalled : List Turn :=
  List.replicate 9 .read ++ [.read, .dispatch, .dispatch, .read, .dispatch, .read]

/-- The theorem for a state in which the reader waits for the queue, the dispatcher for a slot, and
a delivery has to go on. -/
theorem never_stuck_when_stalled : ∃ q, stuckFirst.steps stalled = some q ∧
    (q.step .read).isNone = true ∧ (q.step .dispatch).isNone = true ∧
    (q.Stirs ∨ ∀ now, ∃ r, q.step (.flush now) = some r) := by
  obtain ⟨q, hrun⟩ : ∃ q, stuckFirst.steps stalled = some q := ⟨_, rfl⟩
  have hwaits : (stuckFirst.steps stalled).map (fun q =>
      ((q.step .read).isNone, (q.step .dispatch).isNone, q.outcome?.isNone,
        q.remaining.isEmpty)) = some (true, true, true, false) := by
    decide +kernel
  rw [hrun, Option.map_some, Option.some_inj, Prod.mk.injEq, Prod.mk.injEq, Prod.mk.injEq] at hwaits
  obtain ⟨hread, hdispatch, hgoing, hinHand⟩ := hwaits
  refine ⟨q, hrun, hread, hdispatch, never_stuck ⟨rfl, rfl, rfl, rfl, rfl, rfl⟩ hrun
    (Option.isNone_iff_eq_none.1 hgoing) fun hlistens => ?_⟩
  simp [remaining, hlistens.1, ReaderPhase.remaining] at hinHand

end Pipeline

end WindowTally
