import WindowTally.Pipeline.VirtualTime
import WindowTally.Proofs.Limits
import WindowTally.Proofs.Undisturbed
import WindowTally.Proofs.Unstopped

/-!
# Virtual time

A run keeps virtual time when time passes only while every party waits, and no further than
to the next time that somebody waits for (`Punctual`). The runs of the scheduler are such
runs (`carryAll_trace`, `punctual_trace`).

A pipeline over a list of records never waits for its reader alone. While every party waits,
all deliveries pause, and as long as there are word counts left to start they take up all
slots (`Rests.full_or_joining`).
-/
namespace WindowTally.Pipeline

variable {ι σ : Type} [Source ι] [Sink σ] {p q : Pipeline ι σ} {t : Turn} {ts : List Turn}
  {ms : Nat}

/-- No party can go on before time passes. -/
def Rests (p : Pipeline ι σ) : Prop :=
  ∀ t : Turn, t.works = true ∨ t.flushes = true → p.step t = none

/-- So much time may pass: every party waits, and none for a time that is over before. -/
def MayElapse (p : Pipeline ι σ) (ms : Nat) : Prop :=
  p.Rests ∧ ∃ next, p.timers.min? = some next ∧ p.clock + ms ≤ max p.clock next

/-- Whenever time passes in the run, so much may pass. -/
def Punctual (p : Pipeline ι σ) (ts : List Turn) : Prop :=
  ∀ before ms after q, ts = before ++ .elapse ms :: after → p.steps before = some q →
    q.MayElapse ms

theorem Punctual.of_append {us : List Turn} (h : Punctual p (ts ++ us)) : Punctual p ts := by
  intro before ms after q hsplit hq
  refine h before ms (after ++ us) q ?_ hq
  rw [hsplit, List.append_assoc]
  rfl

theorem Punctual.last (h : Punctual p (ts ++ [.elapse ms])) (hq : p.steps ts = some q) :
    q.MayElapse ms :=
  h ts ms [] q rfl hq

theorem punctual_nil : Punctual p [] := by
  intro before ms after q hsplit
  simp at hsplit

theorem punctual_cons (hq : p.step t = some q) (ht : ∀ ms, t = .elapse ms → p.MayElapse ms)
    (h : Punctual q ts) : Punctual p (t :: ts) := by
  intro before ms after r hsplit hr
  cases before with
  | nil =>
    cases hr
    exact ht ms (List.cons.inj hsplit).1
  | cons t' before =>
    obtain ⟨rfl, hrest⟩ := List.cons.inj hsplit
    rw [steps, hq, Option.bind_some] at hr
    exact h before ms after r hrest hr

/-- Time does not pass in a turn of a party. -/
theorem clock_of_step (ht : ∀ ms, t ≠ .elapse ms) (h : p.step t = some q) :
    q.clock = p.clock := by
  cases reads_of_step h with
  | aside elsewhere same running notice =>
    exact (sameTime_of_aside (reads_of_elsewhere elsewhere) ht h).clock
  | _ => rfl

/-! ## Parties that wait -/

theorem Rests.read_eq_none (hrests : p.Rests) : p.read = none := hrests .read (.inl rfl)

theorem Rests.begun (hrests : p.Rests) : p.reader ≠ .idle := by
  intro hreader
  have hread := hrests.read_eq_none
  rw [read, hreader] at hread
  cases hread

theorem Rests.dispatch_eq_none (hrests : p.Rests) : p.dispatch = none := by
  have hstep := hrests .dispatch (.inl rfl)
  simp only [step] at hstep
  split at hstep
  · next hreader =>
    refine absurd ?_ hrests.begun
    revert hreader
    cases p.reader <;> simp
  · exact hstep

/-- A delivery that waits pauses for some time yet. -/
theorem Rests.pausing (hrests : p.Rests) (htame : p.Tame) {d : Delivery} (hd : d ∈ p.active) :
    ∃ wake, d.phase = .pausing wake ∧ p.clock < wake := by
  obtain ⟨i, hi⟩ := List.getElem?_of_mem hd
  cases hphase : d.phase with
  | offering =>
    have hoffer := hrests (.offer i) (.inl rfl)
    simp [step, offer, hi, hphase] at hoffer
  | pausing wake =>
    refine ⟨wake, rfl, ?_⟩
    by_contra hdue
    have hwake := hrests (.wake i) (.inl rfl)
    simp [step, Pipeline.wake, hi, hphase, Nat.not_lt.1 hdue] at hwake
  | settled outcome =>
    have hgoing := (htame d hd).1
    simp [Delivery.outcome?, hphase] at hgoing

/-- A reader over a list of records does not wait for one. -/
theorem Rests.reader_ne {p : Pipeline ListSource σ} (hrests : p.Rests) :
    p.reader ≠ .waiting ∧ p.reader ≠ .polling := by
  have hread := hrests.read_eq_none
  refine ⟨fun hreader => ?_, fun hreader => ?_⟩
  · have hready : p.sourceReady = true := by
      rw [sourceReady, bne_iff_ne]
      exact p.source.poll_ne_waiting
    simp [read, hreader, hready] at hread
    split at hread <;> cases hread
  · by_cases hdue : p.flushDue = true
    · have hflush := hrests (.flush 0) (.inr rfl)
      simp [step, flush, hreader, hdue] at hflush
    · simp [read, hreader, hdue] at hread

/-- A reader over a list of records has nothing to wait for if the queue is open and empty: then its
next word count has room. -/
theorem Rests.readerGone {p : Pipeline ListSource σ} (hrests : p.Rests)
    (hopen : p.queueClosed = false) (hqueue : p.queue = []) : p.readerGone = true := by
  have hread := hrests.read_eq_none
  have hforward (c : WordCount) (next : ReaderPhase) : p.forward c next ≠ none := by
    have hroom : p.queue.length < p.queueSize := by
      rw [hqueue, queueSize]
      exact Nat.lt_of_lt_of_le Nat.zero_lt_one (Nat.le_max_right _ _)
    rw [forward, enqueue, if_neg (by simp [hopen]), if_pos hroom]
    simp
  cases hreader : p.reader with
  | idle => exact absurd hreader hrests.begun
  | checking | closing => simp [read, hreader] at hread
  | waiting => exact absurd hreader hrests.reader_ne.1
  | polling => exact absurd hreader hrests.reader_ne.2
  | forwarding counts | forwardingLast counts =>
    cases counts with
    | nil => simp [read, hreader] at hread
    | cons c cs =>
      rw [read, hreader] at hread
      exact absurd hread (hforward _ _)
  | finishing outcome | returned outcome => rw [Pipeline.readerGone, hreader]

/-- While all wait, there is no free slot for a word count that the dispatcher holds, or it only has
to wait for deliveries that run, or the run is over. -/
theorem Rests.full_or_joining {p : Pipeline ListSource σ} (hrests : p.Rests)
    (hclosed : p.queueClosed = true → p.readerGone = true) :
    (p.dispatcher ≠ .joining ∧ p.dispatcher ≠ .finished ∧ p.slots ≤ p.active.length) ∨
      (p.dispatcher = .joining ∧ p.active ≠ []) ∨ p.dispatcher = .finished ∧ p.outcome? ≠ none := by
  have hdispatch := hrests.dispatch_eq_none
  have hfull {c : WordCount} {next : DispatcherPhase} (hlaunch : p.launch c next = none) :
      p.slots ≤ p.active.length := by
    rw [launch] at hlaunch
    split at hlaunch
    · cases hlaunch
    · next hslot => exact Nat.not_lt.1 hslot
  cases hphase : p.dispatcher with
  | serving =>
    cases hqueue : p.queue with
    | nil =>
      have hgone := hrests.readerGone (by rw [queueClosed, hphase]) hqueue
      simp [dispatch, hphase, hqueue, hgone] at hdispatch
    | cons c cs => simp [dispatch, hphase, hqueue] at hdispatch
  | emptying =>
    cases hqueue : p.queue with
    | nil => simp [dispatch, hphase, hqueue] at hdispatch
    | cons c cs => simp [dispatch, hphase, hqueue] at hdispatch
  | holding c | holdingLast c =>
    rw [dispatch, hphase] at hdispatch
    exact .inl ⟨by simp, by simp, hfull hdispatch⟩
  | joining =>
    refine .inr (.inl ⟨rfl, fun hactive => ?_⟩)
    cases hsettled : p.settled with
    | nil => simp [dispatch, hphase, hactive, hsettled] at hdispatch
    | cons outcome outcomes =>
      have hcollect := hrests (.collect 0) (.inl rfl)
      simp [step, collect, hsettled, hphase] at hcollect
  | finished =>
    refine .inr (.inr ⟨rfl, ?_⟩)
    have hread := hrests.read_eq_none
    have hgone := hclosed (by rw [queueClosed, hphase])
    cases hreader : p.reader with
    | finishing outcome => simp [read, hreader, hphase] at hread
    | returned outcome => simp [outcome?, hreader]
    | _ => simp [Pipeline.readerGone, hreader] at hgone

/-- While all wait, the times that they wait for are the ends of the pauses. -/
theorem Rests.mem_timers {p : Pipeline ListSource σ} (hrests : p.Rests) {next : Nat} :
    next ∈ p.timers ↔ ∃ d ∈ p.active, d.phase = .pausing next := by
  unfold timers
  split
  · next hreader => exact absurd hreader hrests.reader_ne.1
  · next hreader => exact absurd hreader hrests.reader_ne.2
  · refine List.mem_filterMap.trans (exists_congr fun d => and_congr_right fun _ => ?_)
    cases d.phase <;> simp

/-- While all wait and deliveries run, there is a next time that one waits for. -/
theorem Rests.exists_timer {p : Pipeline ListSource σ} (hrests : p.Rests) (htame : p.Tame)
    (hactive : p.active ≠ []) : ∃ next, p.timers.min? = some next ∧ p.clock < next := by
  obtain ⟨d, hd⟩ := List.exists_mem_of_ne_nil _ hactive
  obtain ⟨wake, hphase, -⟩ := hrests.pausing htame hd
  have hsome : p.timers ≠ [] := List.ne_nil_of_mem (hrests.mem_timers.2 ⟨d, hd, hphase⟩)
  obtain ⟨next, hnext⟩ := Option.ne_none_iff_exists'.1 (mt List.min?_eq_none_iff.1 hsome)
  obtain ⟨e, he, hpauses⟩ := hrests.mem_timers.1 (List.min?_eq_some_iff.1 hnext).1
  obtain ⟨wake', hphase', hlater⟩ := hrests.pausing htame he
  rw [hpauses] at hphase'
  cases hphase'
  exact ⟨next, hnext, hlater⟩

/-! ## The scheduler -/

/-- The turns that the scheduler takes, so many of them at most. -/
def trace (reason : String) (wall : Millis) : Nat → Pipeline ι σ → List Turn
  | 0, _ => []
  | n + 1, p =>
    let turn := ((p.turns wall).find? fun t => (p.carry reason t).isSome).toList
    match p.next? reason wall with
    | some (.ok q) => turn ++ q.trace reason wall n
    | some (.error _) => turn
    | none =>
      match p.timers.min? with
      | some next =>
        .elapse (next - p.clock) :: trace reason wall n { p with clock := max p.clock next }
      | none => []

theorem find?_of_findSome? {α β : Type} {f : α → Option β} {xs : List α} {y : β}
    (h : xs.findSome? f = some y) :
    ∃ x ∈ xs, xs.find? (fun x => (f x).isSome) = some x ∧ f x = some y := by
  induction xs with
  | nil => cases h
  | cons x xs ih =>
    rw [List.findSome?_cons] at h
    cases hx : f x with
    | some z =>
      rw [hx] at h
      cases h
      exact ⟨x, List.mem_cons_self, by rw [List.find?_cons, hx]; rfl, hx⟩
    | none =>
      rw [hx] at h
      obtain ⟨x', hmem, hfind, hx'⟩ := ih h
      exact ⟨x', List.mem_cons_of_mem _ hmem, by rw [List.find?_cons, hx]; exact hfind, hx'⟩

/-- A delivery of which something holds, and the first one of which it does. -/
theorem exists_findIdx? {ds : List Delivery} {i : Nat} {d : Delivery} {f : Delivery → Bool}
    {first : Option Nat} (hfirst : first = ds.findIdx? f) (hi : ds[i]? = some d)
    (hd : f d = true) : ∃ j e, first = some j ∧ ds[j]? = some e ∧ f e = true := by
  cases hfind : ds.findIdx? f with
  | none => simp [List.findIdx?_eq_none_iff.1 hfind d (List.mem_of_getElem? hi)] at hd
  | some j =>
    obtain ⟨hj, hf, -⟩ := List.findIdx?_eq_some_iff_getElem.1 hfind
    exact ⟨j, ds[j], hfirst.trans hfind, List.getElem?_eq_getElem hj, hf⟩

omit [Source ι] [Sink σ] in
theorem exists_offering {i : Nat} {d : Delivery} (hi : p.active[i]? = some d)
    (hphase : d.phase = .offering) :
    ∃ j e, p.offering? = some j ∧ p.active[j]? = some e ∧ e.phase = .offering := by
  have hfirst : p.offering? = p.active.findIdx? _ := rfl
  obtain ⟨j, e, hfind, hj, he⟩ := exists_findIdx? hfirst hi (by simp [hphase])
  refine ⟨j, e, hfind, hj, ?_⟩
  split at he
  · assumption
  · cases he

omit [Source ι] [Sink σ] in
theorem exists_waking {i wake : Nat} {d : Delivery} (hi : p.active[i]? = some d)
    (hphase : d.phase = .pausing wake) (hdue : wake ≤ p.clock) :
    ∃ j e due, p.waking? = some j ∧ p.active[j]? = some e ∧ e.phase = .pausing due ∧
      due ≤ p.clock := by
  have hfirst : p.waking? = p.active.findIdx? _ := rfl
  obtain ⟨j, e, hfind, hj, he⟩ := exists_findIdx? hfirst hi (by simp [hphase, hdue])
  split at he
  · next due hpausing => exact ⟨j, e, due, hfind, hj, hpausing, of_decide_eq_true he⟩
  · cases he

/-- If the scheduler finds no turn to take, then every party waits. -/
theorem rests_of_next? {reason : String} {wall : Millis} (hslots : p.slots ≤ maxPermits)
    (h : p.next? reason wall = none) : p.Rests := by
  have hnone := List.findSome?_eq_none_iff.1 h
  have hturn {t : Turn} (hmem : t ∈ p.turns wall) : p.step t = none :=
    (carry_eq_none_iff hslots).1 (hnone t hmem)
  intro t ht
  cases t with
  | read | dispatch => exact hturn (by simp [turns])
  | flush now =>
    -- Whether the reader flushes does not depend on the wall clock.
    have hflush := hturn (t := .flush (p.wallClock wall)) (by simp [turns])
    simp only [step, flush] at hflush ⊢
    split
    · next hreader =>
      rw [hreader] at hflush
      split
      · next hdue => simp [hdue] at hflush
      · rfl
    · rfl
  | collect i =>
    have hcollect := hturn (t := .collect 0) (by simp [turns])
    simp only [step, collect] at hcollect ⊢
    cases hsettled : p.settled with
    | nil => simp
    | cons outcome outcomes =>
      simp only [hsettled, List.getElem?_cons_zero] at hcollect
      split
      · rfl
      · split at hcollect <;> simp_all
  | offer i =>
    by_contra hoffer
    simp only [step, offer] at hoffer
    split at hoffer
    · next d hi =>
      split at hoffer
      · next hphase =>
        obtain ⟨j, e, hfirst, hj, he⟩ := exists_offering hi hphase
        have hnone := hturn (t := .offer j) (by simp [turns, hfirst])
        simp [step, offer, hj, he] at hnone
      · exact hoffer rfl
    · exact hoffer rfl
  | wake i =>
    by_contra hwake
    simp only [step, wake] at hwake
    split at hwake
    · next d hi =>
      split at hwake
      · next due hphase =>
        split at hwake
        · next hdue =>
          obtain ⟨j, e, due, hfirst, hj, he, hle⟩ := exists_waking hi hphase hdue
          have hnone := hturn (t := .wake j) (by simp [turns, hfirst])
          simp [step, wake, hj, he, hle] at hnone
        · exact hwake rfl
      · exact hwake rfl
    · exact hwake rfl
  | clearRunning | notify | elapse ms => simp [Turn.works, Turn.flushes] at ht

omit [Source ι] [Sink σ] in
/-- A turn that the scheduler takes is one of a party. -/
theorem ne_elapse_of_mem_turns {wall : Millis} (h : t ∈ p.turns wall) (ms : Nat) :
    t ≠ .elapse ms := by
  rintro rfl
  simp [turns] at h

omit [Source ι] [Sink σ] in
/-- Letting time pass up to the next time is what the scheduler does while all wait. -/
theorem clock_add_sub (p : Pipeline ι σ) (next : Nat) :
    { p with clock := p.clock + (next - p.clock) } = { p with clock := max p.clock next } := by
  congr 1
  omega

/-- The turns that the scheduler takes come to what it comes to. -/
theorem carryAll_trace (reason : String) (wall : Millis) (n : Nat) (p : Pipeline ι σ) :
    p.carryAll reason (p.trace reason wall n) = some (runFor reason wall none n p) := by
  induction n generalizing p with
  | zero => rfl
  | succ n ih =>
    cases hnext : p.next? reason wall with
    | some answer =>
      obtain ⟨t, -, hfind, ht⟩ := find?_of_findSome? hnext
      cases answer with
      | ok q =>
        simp only [trace, runFor, hnext, hfind, Option.toList_some, List.singleton_append]
        rw [carryAll, ht]
        exact ih q
      | error overrun =>
        simp only [trace, runFor, hnext, hfind, Option.toList_some]
        rw [carryAll, ht]
    | none =>
      cases htimers : p.timers.min? with
      | none => simp only [trace, runFor, hnext, htimers, carryAll]
      | some next =>
        have hlapse : p.carry reason (.elapse (next - p.clock)) =
            some (.ok { p with clock := max p.clock next }) := by
          rw [← p.clock_add_sub next]
          rfl
        simp only [trace, runFor, hnext, htimers]
        rw [carryAll, hlapse]
        exact ih _

/-- With room for the slots the scheduler keeps virtual time. -/
theorem punctual_trace (reason : String) (wall : Millis) (n : Nat) {p : Pipeline ι σ}
    (hslots : p.slots ≤ maxPermits) : Punctual p (p.trace reason wall n) := by
  induction n generalizing p with
  | zero => exact punctual_nil
  | succ n ih =>
    cases hnext : p.next? reason wall with
    | some answer =>
      obtain ⟨t, hmem, hfind, ht⟩ := find?_of_findSome? hnext
      have hparty (ms : Nat) (heq : t = .elapse ms) : p.MayElapse ms :=
        absurd heq (ne_elapse_of_mem_turns hmem ms)
      cases answer with
      | ok q =>
        have hstep := move_of_make (m := .turn t) hslots ht
        have hslots' : q.slots ≤ maxPermits := slots_of_make (m := .turn t) ht ▸ hslots
        simp only [trace, hnext, hfind, Option.toList_some, List.singleton_append]
        exact punctual_cons hstep hparty (ih hslots')
      | error overrun =>
        obtain ⟨q, hstep⟩ : ∃ q, p.step t = some q :=
          Option.ne_none_iff_exists'.1 fun hnone => by
            rw [(carry_eq_none_iff hslots).2 hnone] at ht
            cases ht
        simp only [trace, hnext, hfind, Option.toList_some]
        exact punctual_cons hstep hparty punctual_nil
    | none =>
      cases htimers : p.timers.min? with
      | none =>
        simp only [trace, hnext, htimers]
        exact punctual_nil
      | some next =>
        have hlapse : p.step (.elapse (next - p.clock)) =
            some { p with clock := max p.clock next } := congrArg some (p.clock_add_sub next)
        simp only [trace, hnext, htimers]
        refine punctual_cons hlapse (fun ms hms => ?_) (ih hslots)
        cases hms
        exact ⟨rests_of_next? hslots hnext, next, htimers, by omega⟩

end WindowTally.Pipeline
