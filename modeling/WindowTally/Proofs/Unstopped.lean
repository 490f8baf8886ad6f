import WindowTally.Proofs.Statistics
import WindowTally.Proofs.Stopping

/-!
# Runs that nobody asks to stop

A run that nobody asks to stop reads its source to the end, or up to a fault. What the
source will yield is told by `Yields`, whatever kind of source it is; flushes may come
at any time. If the sink takes whatever it is offered, then no delivery pauses or fails
and nothing is given up (`Untroubled`), and the run comes to what reading came to.

`Steady` is what every turn keeps. Each one that is neither a flush nor the passing of
time lowers the work that is left, and a flush adds three turns at most
(`work_of_unstopped`). Results:

* `passes_of_steps`: what such a run has taken in, met and done, against what is ahead;
* `ends_of_steady`: wherever it is, it can be brought to its end with no time passing;
* `outcome_of_steady`: there it has taken in all that the source yielded, and has come to
  what the source came to.
-/
namespace WindowTally

/-- The source yields these records and then ends, or fails if there is a fault. -/
inductive Yields {ι : Type} [Source ι] : ι → List Record → Option Fault → Prop where
  | ends {s s' : ι} (polled : Source.poll s = (.ended, s')) : Yields s [] none
  | fails {s s' : ι} {fault : Fault} (polled : Source.poll s = (.failed fault, s')) :
      Yields s [] (some fault)
  | yields {s s' : ι} {r : Record} {rs : List Record} {fault : Option Fault}
      (polled : Source.poll s = (.record r, s')) (later : Yields s' rs fault) :
      Yields s (r :: rs) fault

section
variable {ι : Type} [Source ι] {s s' : ι} {rs : List Record} {fault : Option Fault}
  (h : Yields s rs fault)
include h

/-- Such a source never has to be waited for. -/
theorem Yields.poll_ne_waiting : (Source.poll s).1 ≠ .waiting := by
  cases h with
  | ends polled | fails polled | yields polled later => simp [polled]

theorem Yields.of_record {r : Record} (polled : Source.poll s = (.record r, s')) :
    ∃ rs', rs = r :: rs' ∧ Yields s' rs' fault := by
  cases h with
  | ends polled' | fails polled' => simp [polled] at polled'
  | yields polled' later =>
    obtain ⟨hr, rfl⟩ := Prod.mk.inj (polled.symm.trans polled')
    cases hr
    exact ⟨_, rfl, later⟩

theorem Yields.of_ended (polled : Source.poll s = (.ended, s')) : rs = [] ∧ fault = none := by
  cases h with
  | ends polled' => exact ⟨rfl, rfl⟩
  | fails polled' | yields polled' later => simp [polled] at polled'

theorem Yields.of_failed {f : Fault} (polled : Source.poll s = (.failed f, s')) :
    rs = [] ∧ fault = some f := by
  cases h with
  | ends polled' | yields polled' later => simp [polled] at polled'
  | fails polled' =>
    have hfault := congrArg Prod.fst (polled.symm.trans polled')
    cases hfault
    exact ⟨rfl, rfl⟩

end

namespace Sink

variable {σ : Type} [Sink σ]

/-- The sink after several offers. -/
def after (s : σ) (cs : List WordCount) : σ := cs.foldl (fun s c => (deliver s c).2) s

/-- The sink takes whatever it is offered. -/
def TakesAll (s : σ) : Prop := ∀ cs c, (deliver (after s cs) c).1 = .ok ()

theorem TakesAll.deliver {s : σ} (h : TakesAll s) (c : WordCount) :
    (deliver s c).1 = .ok () ∧ TakesAll (deliver s c).2 :=
  ⟨h [] c, fun cs => h (c :: cs)⟩

end Sink

/-- Whether a turn is part of a request to stop. -/
def Turn.asks : Turn → Bool
  | .clearRunning | .notify => true
  | _ => false

/-- Whether the reader flushes. -/
def Turn.flushes : Turn → Bool
  | .flush _ => true
  | _ => false

/-- How many turns the reader still takes at most, with so many records ahead, apart from those in
which it queues what was emitted. -/
def ReaderPhase.turnsAhead (n : Nat) : ReaderPhase → Nat
  | .idle | .forwarding _ => 4 * n + 7
  | .checking => 4 * n + 6
  | .waiting => 4 * n + 5
  | .polling => 4 * n + 4
  | .closing => 3
  | .forwardingLast _ => 2
  | .finishing _ => 1
  | .returned _ => 0

/-- The record that an operation takes in. -/
def Operation.record? : Operation → Option Record
  | .record r => some r
  | _ => none

namespace Pipeline

open Event (counts)

variable {ι σ : Type} [Source ι] [Sink σ] {p q r : Pipeline ι σ} {t : Turn} {ts : List Turn}
  {rs rs' : List Record} {fault fault' : Option Fault}

/-! ## What the reader will still get -/

/-- Nobody has asked to stop. -/
structure Unstopped (p : Pipeline ι σ) : Prop where
  notice : p.notice = false
  running : p.reader ≠ .idle → p.hasLeft = false → p.running = true

/-- What the source will still yield to the reader: nothing, once it has left its loop. -/
def Ahead (p : Pipeline ι σ) (rs : List Record) (fault : Option Fault) : Prop :=
  if p.hasLeft then rs = [] ∧ fault = none else Yields p.source rs fault

theorem unstopped_of_step (hp : p.Unstopped) (ht : t.asks = false) (h : p.step t = some q) :
    q.Unstopped := by
  have hgoes (hnotice : q.notice = p.notice) (hrunning : q.running = p.running)
      (hbegun : p.reader ≠ .idle) (hstays : p.hasLeft = false) : q.Unstopped :=
    ⟨hnotice.trans hp.notice, fun _ _ => hrunning.trans (hp.running hbegun hstays)⟩
  have hleaves (hnotice : q.notice = false) (hleft : q.hasLeft = true) : q.Unstopped :=
    ⟨hnotice, fun _ hstays => absurd (hleft.symm.trans hstays) (by decide)⟩
  cases reads_of_step h with
  | aside elsewhere same running notice =>
    have hrunning : q.running = p.running := by
      rcases running with hrunning | ⟨rfl, -⟩
      · exact hrunning
      · cases ht
    have hnotice : q.notice = p.notice := by
      rcases notice with hnotice | rfl
      · exact hnotice
      · cases ht
    have hleft : q.hasLeft = p.hasLeft := by rw [hasLeft, same.reader]; rfl
    refine ⟨hnotice.trans hp.notice, fun hbegun hstays => ?_⟩
    rw [same.reader] at hbegun
    exact hrunning.trans (hp.running hbegun (hleft ▸ hstays))
  | begins phase => exact ⟨hp.notice, fun _ _ => rfl⟩
  | checks phase | proceeds phase unasked | misses phase polled | receives phase polled
  | flushes phase due | goesOn phase =>
    exact hgoes rfl rfl (by simp [phase]) (by rw [hasLeft, phase])
  | forwards isOpen room left =>
    rcases left with ⟨phase, rfl⟩ | ⟨phase, rfl⟩
    · exact hgoes rfl rfl (by simp [phase]) (by rw [hasLeft, phase])
    · exact hleaves hp.notice rfl
  | heeds phase asked => exact hleaves rfl rfl
  | _ => exact hleaves hp.notice rfl

/-- What a turn gets from the source, and what it leaves there. -/
structure Takes (p : Pipeline ι σ) (t : Turn) (rs : List Record) (fault : Option Fault)
    (rs' : List Record) (fault' : Option Fault) : Prop where
  records : (p.operation? t).toList.filterMap Operation.record? ++ rs' = rs
  faults : (p.sourceFault? t).toList ++ fault'.toList = fault.toList

omit [Sink σ] in
theorem Takes.nothing (hop : (p.operation? t).toList.filterMap Operation.record? = [])
    (hfault : p.sourceFault? t = none) : Takes p t rs fault rs fault :=
  ⟨by rw [hop, List.nil_append], by rw [hfault]; rfl⟩

theorem ahead_of_step (hp : p.Unstopped) (ha : p.Ahead rs fault) (ht : t.asks = false)
    (h : p.step t = some q) (hkept : counts .lost (p.events (.turn t)) = []) :
    ∃ rs' fault', q.Ahead rs' fault' ∧ Takes p t rs fault rs' fault' := by
  unfold Ahead at ha
  have hlooks (hop : (p.operation? t).toList.filterMap Operation.record? = [])
      (hfault : p.sourceFault? t = none) (hleft : q.hasLeft = p.hasLeft)
      (hsource : q.source = p.source) :
      ∃ rs' fault', q.Ahead rs' fault' ∧ Takes p t rs fault rs' fault' := by
    refine ⟨rs, fault, ?_, .nothing hop hfault⟩
    rw [Ahead, hleft, hsource]
    exact ha
  cases reads_of_step h with
  | aside elsewhere same running notice =>
    refine hlooks (by rw [operation?_of_elsewhere elsewhere]; rfl) ?_
      (by rw [hasLeft, same.reader]; rfl) same.source
    cases t with
    | read => exact absurd rfl elsewhere.1
    | _ => rfl
  | begins phase | proceeds phase unasked | goesOn phase =>
    exact hlooks (by simp [operation?, phase]) (by simp [sourceFault?, phase])
      (by simp [hasLeft, phase, start]) rfl
  | checks phase =>
    have hrunning := hp.running (by simp [phase]) (by rw [hasLeft, phase])
    exact hlooks (by simp [operation?, phase]) (by simp [sourceFault?, phase])
      (by simp [hasLeft, phase, hrunning]) rfl
  | heeds phase asked =>
    rw [hp.notice] at asked
    cases asked
  | misses phase polled =>
    rw [hasLeft, phase] at ha
    exact absurd (congrArg Prod.fst polled) ha.poll_ne_waiting
  | receives phase polled =>
    rw [hasLeft, phase] at ha
    obtain ⟨rs', rfl, hlater⟩ := ha.of_record polled
    exact ⟨rs', fault, hlater, by simp [operation?, phase, polled, Operation.record?],
      by simp [sourceFault?, phase, polled]⟩
  | ends phase polled =>
    rw [hasLeft, phase] at ha
    obtain ⟨rfl, rfl⟩ := ha.of_ended polled
    exact ⟨[], none, ⟨rfl, rfl⟩, by simp [operation?, phase, polled],
      by simp [sourceFault?, phase, polled]⟩
  | breaks phase polled =>
    rw [hasLeft, phase] at ha
    obtain ⟨rfl, rfl⟩ := ha.of_failed polled
    exact ⟨[], none, ⟨rfl, rfl⟩, by simp [operation?, phase, polled],
      by simp [sourceFault?, phase, polled]⟩
  | flushes phase due =>
    exact hlooks rfl rfl (by simp [hasLeft, phase]) rfl
  | forwards isOpen room left =>
    rcases left with ⟨phase, rfl⟩ | ⟨phase, rfl⟩ <;>
      exact hlooks (by simp [operation?, phase]) (by simp [sourceFault?, phase])
        (by simp [hasLeft, phase]) rfl
  | givesUp isClosed inHand =>
    rw [lost_of_turn, if_pos ⟨rfl, isClosed⟩] at hkept
    rcases inHand with phase | phase <;>
      simp [remaining, phase, ReaderPhase.remaining] at hkept
  | drains phase asked =>
    exact hlooks (by simp [operation?, phase, asked, Operation.record?])
      (by simp [sourceFault?, phase]) (by simp [hasLeft, phase]) rfl
  | finishes phase =>
    rcases phase with ⟨phase, unasked⟩ | phase
    · exact hlooks (by simp [operation?, phase, unasked]) (by simp [sourceFault?, phase])
        (by simp [hasLeft, phase]) rfl
    · exact hlooks (by simp [operation?, phase]) (by simp [sourceFault?, phase])
        (by simp [hasLeft, phase]) rfl
  | returns phase done =>
    exact hlooks (by simp [operation?, phase]) (by simp [sourceFault?, phase])
      (by simp [hasLeft, phase]) rfl

/-! ## The turns of the reader -/

/-- A turn of the reader lowers what is left to it, a flush apart; what is emitted it has yet to
queue. -/
theorem turns_of_step (hready : p.reader = .polling → (Source.poll p.source).1 ≠ .waiting)
    (ht : t.reads = true) (h : p.step t = some q) {n n' : Nat}
    (hn : (p.operation? t).toList.countP Operation.takesIn + n' = n) :
    [t].countP Turn.works + q.reader.turnsAhead n' + q.remaining.length ≤
      p.reader.turnsAhead n + p.remaining.length +
        (counts .emitted (p.events (.turn t))).length + 3 * [t].countP Turn.flushes := by
  have hworks : [t].countP Turn.works + [t].countP Turn.flushes = 1 := by
    cases t <;> first | rfl | cases ht
  -- Without a record that is taken in, as many stay ahead.
  have hquiet (hop : (p.operation? t).toList.countP Operation.takesIn = 0)
      (hturns : [t].countP Turn.works + q.reader.turnsAhead n ≤
        p.reader.turnsAhead n + 3 * [t].countP Turn.flushes)
      (hinHand : q.remaining.length ≤ p.remaining.length +
        (counts .emitted (p.events (.turn t))).length) :
      [t].countP Turn.works + q.reader.turnsAhead n' + q.remaining.length ≤
        p.reader.turnsAhead n + p.remaining.length +
          (counts .emitted (p.events (.turn t))).length + 3 * [t].countP Turn.flushes := by
    rw [hop, Nat.zero_add] at hn
    subst hn
    omega
  -- What an operation emits is what the reader has in hand after it.
  have hemitted {op : Operation} (hop : p.operation? t = some op)
      (hinHand : q.remaining = (p.aggregator.operate op).1) :
      q.remaining.length = (counts .emitted (p.events (.turn t))).length := by
    rw [emitted_of_turn, hop, hinHand]
    simp [Aggregator.outputs]
  cases reads_of_step h with
  | aside elsewhere same running notice =>
    rw [reads_of_elsewhere elsewhere] at ht
    cases ht
  | begins phase =>
    refine hquiet (by simp [operation?, phase]) ?_ (Nat.zero_le _)
    simp only [start, ReaderPhase.turnsAhead, phase]
    omega
  | checks phase =>
    have hnone : ({ p with reader := if p.running then .waiting else .closing } :
        Pipeline ι σ).remaining = [] := by
      cases hrunning : p.running <;> simp [remaining, ReaderPhase.remaining]
    refine hquiet (by simp [operation?, phase]) ?_ (by rw [hnone]; exact Nat.zero_le _)
    cases p.running <;> simp only [ReaderPhase.turnsAhead, phase, if_true, Bool.false_eq_true,
      if_false] <;> omega
  | heeds phase asked | proceeds phase unasked | goesOn phase | returns phase done =>
    refine hquiet (by simp [operation?, phase]) ?_ (Nat.zero_le _)
    simp only [ReaderPhase.turnsAhead, phase]
    omega
  | misses phase polled => exact absurd (congrArg Prod.fst polled) (hready phase)
  | @receives r source phase polled =>
    have hop : p.operation? .read = some (.record r) := by simp [operation?, phase, polled]
    have hinHand := hemitted hop rfl
    rw [hop, Option.toList_some, List.countP_singleton, Operation.takesIn, if_pos rfl] at hn
    rw [hinHand, phase]
    simp only [ReaderPhase.turnsAhead]
    omega
  | ends phase polled | breaks phase polled =>
    refine hquiet (by simp [operation?, phase, polled]) ?_ (Nat.zero_le _)
    simp only [ReaderPhase.turnsAhead, phase]
    omega
  | @flushes now nextFlush phase due =>
    have hop : p.operation? (.flush now) = some (.flush now) := rfl
    have hinHand := hemitted hop rfl
    refine hquiet rfl ?_ (hinHand ▸ Nat.le_add_left _ _)
    have hnone : [Turn.flush now].countP Turn.works = 0 := rfl
    simp only [ReaderPhase.turnsAhead, phase]
    omega
  | @forwards c cs next isOpen room left =>
    have hop : (p.operation? .read).toList.countP Operation.takesIn = 0 := by
      rcases left with ⟨phase, -⟩ | ⟨phase, -⟩ <;> simp [operation?, phase]
    rw [hop, Nat.zero_add] at hn
    subst hn
    rcases left with ⟨phase, rfl⟩ | ⟨phase, rfl⟩
    · simp only [ReaderPhase.turnsAhead, remaining, ReaderPhase.remaining, phase, List.length_cons]
      omega
    · simp only [ReaderPhase.turnsAhead, remaining, ReaderPhase.remaining, phase, List.length_cons]
      omega
  | givesUp isClosed inHand =>
    rcases inHand with phase | phase
    · refine hquiet (by simp [operation?, phase]) ?_ (Nat.zero_le _)
      simp only [ReaderPhase.turnsAhead, phase]
      omega
    · refine hquiet (by simp [operation?, phase]) ?_ (Nat.zero_le _)
      simp only [ReaderPhase.turnsAhead, phase]
      omega
  | drains phase asked =>
    have hop : p.operation? .read = some .drain := by simp [operation?, phase, asked]
    have hinHand := hemitted hop rfl
    refine hquiet (by simp [hop, Operation.takesIn]) ?_ (hinHand ▸ Nat.le_add_left _ _)
    simp only [ReaderPhase.turnsAhead, phase]
    omega
  | finishes phase =>
    rcases phase with ⟨phase, unasked⟩ | phase
    · refine hquiet (by simp [operation?, phase, unasked]) ?_ (Nat.zero_le _)
      simp only [ReaderPhase.turnsAhead, phase]
      omega
    · refine hquiet (by simp [operation?, phase]) ?_ (Nat.zero_le _)
      simp only [ReaderPhase.turnsAhead, phase]
      omega

/-! ## A sink that takes everything -/

/-- No delivery pauses or fails, and the queue is closed only once the reader has left it. -/
structure Untroubled (p : Pipeline ι σ) : Prop where
  takesAll : Sink.TakesAll p.sink
  offering : ∀ d ∈ p.active, d.phase = .offering
  settled : ∀ outcome ∈ p.settled, outcome = .ok ()
  failure : p.failure = none
  isOpen : p.queueClosed = true → p.readerGone = true

omit [Source ι] in
/-- The sink takes what it is offered, so the delivery ends well. -/
theorem Untroubled.answered (hp : p.Untroubled) (d : Delivery) :
    (p.answered d).phase = .settled (.ok ()) := by
  rcases p.answered_cases d with ⟨-, hphase⟩ | ⟨cause, herror, -⟩
  · exact hphase
  · rw [(hp.takesAll.deliver d.count).1] at herror
    cases herror

theorem untroubled_of_step (hp : p.Untroubled) (h : p.step t = some q) :
    q.Untroubled ∧ counts .failed (p.events (.turn t)) = [] ∧
      counts .lost (p.events (.turn t)) = [] := by
  have hadvance := advance_of_move (m := .turn t) h
  have hlost : counts .lost (p.events (.turn t)) = [] := by
    rw [lost_of_turn]
    split
    · next hclosed => exact remaining_of_gone (hp.isOpen hclosed.2)
    · rfl
  have hclosing (hfailure : q.failure = none) : q.queueClosed = true → q.readerGone = true := by
    intro hclosed
    rcases closing_of_advance hclosed hadvance with hbefore | hgone | hfailed
    · exact (gone_of_step h).1 (hp.isOpen hbefore)
    · exact (gone_of_step h).1 hgone
    · exact absurd hfailure hfailed
  revert hclosing hlost
  generalize p.events (.turn t) = es at hadvance
  intro hlost hclosing
  cases hadvance with
  | rests same aggregator inHand result =>
    have hfailure := same.failure.trans hp.failure
    refine ⟨⟨?_, ?_, ?_, hfailure, hclosing hfailure⟩, rfl, hlost⟩
    · rw [same.sink]
      exact hp.takesAll
    · rw [same.active]
      exact hp.offering
    · rw [same.settled]
      exact hp.settled
  | starts phase slot =>
    refine ⟨⟨hp.takesAll, fun d hd => ?_, hp.settled, hp.failure, hclosing hp.failure⟩, rfl, hlost⟩
    rcases List.mem_append.1 hd with hd | hd
    · exact hp.offering d hd
    · rw [List.mem_singleton.1 hd]
  | @collects i outcome next ended phase =>
    have hnone : p.failure.or (fault? outcome) = none := by
      rw [hp.failure, hp.settled outcome (List.mem_of_getElem? ended)]
      rfl
    exact ⟨⟨hp.takesAll, hp.offering, fun o ho => hp.settled o (List.mem_of_mem_eraseIdx ho), hnone,
      hclosing hnone⟩, rfl, hlost⟩
  | @settles i d outcome running phase ended =>
    rw [hp.answered d] at ended
    cases ended
    refine ⟨⟨(hp.takesAll.deliver d.count).2,
      fun e he => hp.offering e (List.mem_of_mem_eraseIdx he), fun o ho => ?_, hp.failure,
      hclosing hp.failure⟩, by simp [ending], hlost⟩
    rcases List.mem_append.1 ho with ho | ho
    · exact hp.settled o ho
    · exact List.mem_singleton.1 ho
  | @retries i d wake running phase pauses =>
    rw [hp.answered d] at pauses
    cases pauses
  | @wakes i d wake running phase due =>
    rw [hp.offering d (List.mem_of_getElem? running)] at phase
    cases phase
  | _ =>
    exact ⟨⟨hp.takesAll, hp.offering, hp.settled, hp.failure, hclosing hp.failure⟩, by simp, hlost⟩

/-! ## The work that is left -/

/-- A bound on the word counts that are still to be emitted, with such records ahead. -/
def unemitted (p : Pipeline ι σ) (rs : List Record) : Nat :=
  p.snapshot.length + (rs.map fun r => (Operation.record r).placements p.aggregator.windows).sum

/-- A bound on the turns that are left to all parties, with such records ahead. -/
def workAhead (p : Pipeline ι σ) (rs : List Record) : Nat :=
  p.reader.turnsAhead rs.length +
    (2 * p.maxRetries.toNat + 5) * (p.remaining.length + p.unemitted rs) + p.deliveringWork

theorem coupled_of_step (hp : p.aggregator.Coupled) (h : p.step t = some q) :
    q.aggregator.Coupled := by
  have hafter := Aggregator.coupled_after hp (p.operation? t).toList
  have hpart := readingPart_of_step h
  have hfrontier := congrArg Aggregator.frontier hpart
  have htally := congrArg Aggregator.tally hpart
  simp only [Aggregator.readingPart, Aggregator.withTotals] at hfrontier htally
  obtain ⟨hsound, hpending, hpositive⟩ := hafter
  exact ⟨hfrontier ▸ hsound, by rw [hfrontier, htally]; exact hpending, htally ▸ hpositive⟩

theorem unemitted_of_step (hp : p.aggregator.Coupled) (h : p.step t = some q)
    (htakes : Takes p t rs fault rs' fault') :
    q.unemitted rs' + (counts .emitted (p.events (.turn t))).length ≤ p.unemitted rs := by
  have hpart := readingPart_of_step h
  have htally : q.snapshot = (p.aggregator.after (p.operation? t).toList).tally.entries :=
    congrArg (fun a => a.tally.entries) hpart
  have hwindows : q.aggregator.windows = p.aggregator.windows :=
    (congrArg Aggregator.windows hpart).trans (Aggregator.windows_after _ _)
  have hrecords := htakes.records
  rw [emitted_of_turn, unemitted, unemitted, htally, hwindows, ← hrecords]
  cases hop : p.operation? t with
  | none => simp [Aggregator.after, Aggregator.outputs, snapshot]
  | some op =>
    have hlength := Aggregator.length_operate_le hp op
    have hplaced : (([op].filterMap Operation.record?).map fun r =>
        (Operation.record r).placements p.aggregator.windows).sum =
          op.placements p.aggregator.windows := by
      cases op with
      | record r => exact Nat.add_zero _
      | flush now | drain => rfl
    have houtputs : (p.aggregator.outputs [op]).flatten = (p.aggregator.operate op).1 :=
      List.append_nil _
    rw [Option.toList_some, List.map_append, List.sum_append, hplaced, houtputs]
    simp only [Aggregator.after, List.foldl_cons, List.foldl_nil, snapshot]
    omega

/-- A turn takes from the work that is left, and a flush adds three turns at most. -/
theorem work_of_unstopped (hcoupled : p.aggregator.Coupled) (huntroubled : p.Untroubled)
    (ha : p.Ahead rs fault) (htakes : Takes p t rs fault rs' fault') (h : p.step t = some q) :
    [t].countP Turn.works + q.workAhead rs' ≤ p.workAhead rs + 3 * [t].countP Turn.flushes := by
  have hmax : q.maxRetries = p.maxRetries :=
    maxRetries_of_advance (advance_of_move (m := .turn t) h)
  have hunemitted := unemitted_of_step hcoupled h htakes
  have hn : (p.operation? t).toList.countP Operation.takesIn + rs'.length = rs.length := by
    rw [← htakes.records, List.length_append]
    cases p.operation? t with
    | none => rfl
    | some op => cases op <;> rfl
  by_cases hreads : t.reads = true
  · have hready : p.reader = .polling → (Source.poll p.source).1 ≠ .waiting := by
      intro phase
      rw [Ahead, hasLeft, phase] at ha
      exact ha.poll_ne_waiting
    have hturns := turns_of_step hready hreads h hn
    have hbehind := deliveringWork_of_reads hreads h
    have hmul := Nat.mul_le_mul_left (2 * p.maxRetries.toNat + 5) hunemitted
    rw [workAhead, workAhead, hmax]
    simp only [Nat.mul_add, Nat.succ_mul] at hbehind hmul ⊢
    omega
  · cases reads_of_step h with
    | aside elsewhere same running notice =>
      have hless := deliveringWork_of_aside (fun i hi => ?_) elsewhere h
      · have hahead : rs'.length = rs.length := by
          rw [← hn, operation?_of_elsewhere elsewhere]
          exact (Nat.zero_add _).symm
        have hmul := Nat.mul_le_mul_left (2 * p.maxRetries.toNat + 5)
          (Nat.le_of_add_right_le hunemitted)
        rw [workAhead, workAhead, hmax, remaining, remaining, same.reader, hahead]
        simp only [Nat.mul_add] at hmul ⊢
        omega
      · refine deliveringWork_of_answered (fun d _ _ hgoing => ?_) hi
        rw [Delivery.outcome?, huntroubled.answered d] at hgoing
        cases hgoing
    | _ => exact absurd rfl hreads

/-! ## Steady runs -/

/-- What a run keeps that nobody asks to stop and whose sink takes everything, with what is still
ahead of it. -/
structure Steady (p : Pipeline ι σ) (rs : List Record) (fault : Option Fault) : Prop where
  unstopped : p.Unstopped
  ahead : p.Ahead rs fault
  coupled : p.aggregator.Coupled
  untroubled : p.Untroubled
  tame : p.Tame

theorem steady_of_step (hp : p.Steady rs fault) (ht : t.asks = false) (h : p.step t = some q) :
    ∃ rs' fault', q.Steady rs' fault' ∧ Takes p t rs fault rs' fault' := by
  obtain ⟨huntroubled, -, hlost⟩ := untroubled_of_step hp.untroubled h
  obtain ⟨rs', fault', hahead, htakes⟩ := ahead_of_step hp.unstopped hp.ahead ht h hlost
  exact ⟨rs', fault', ⟨unstopped_of_step hp.unstopped ht h, hahead, coupled_of_step hp.coupled h,
    huntroubled, tame_of_advance hp.tame (advance_of_move (m := .turn t) h)⟩, htakes⟩

/-- What a steady run does on its way from `p` to `q`, and what it leaves ahead. -/
structure Passes (p : Pipeline ι σ) (rs : List Record) (fault : Option Fault)
    (ts : List Turn) (q : Pipeline ι σ) (rs' : List Record) (fault' : Option Fault) :
    Prop where
  /-- The records that are taken in are those that come first. -/
  records : (p.operations ts).filterMap Operation.record? ++ rs' = rs
  /-- A fault is met once. -/
  faults : p.sourceFaults ts ++ fault'.toList = fault.toList
  /-- No delivery fails. -/
  failed : counts .failed (p.history (ts.map .turn)) = []
  /-- Nothing is given up. -/
  lost : counts .lost (p.history (ts.map .turn)) = []
  /-- Turns other than flushes and the passing of time are taken from the work that is left. -/
  works : ts.countP Turn.works + q.workAhead rs' ≤
    p.workAhead rs + 3 * ts.countP Turn.flushes

theorem passes_of_steps (hp : p.Steady rs fault) (hts : ∀ t ∈ ts, t.asks = false)
    (h : p.steps ts = some q) :
    ∃ rs' fault', q.Steady rs' fault' ∧ Passes p rs fault ts q rs' fault' := by
  revert hts
  refine steps_induction (P := fun ts q => (∀ t ∈ ts, t.asks = false) →
    ∃ rs' fault', q.Steady rs' fault' ∧ Passes p rs fault ts q rs' fault') (fun _ => ?_) ?_ h
  · refine ⟨rs, fault, hp, rfl, rfl, rfl, rfl, ?_⟩
    exact Nat.le_of_eq (Nat.zero_add _)
  · intro ts t q r hq hr ih hts
    obtain ⟨hbefore, hlast⟩ := List.forall_mem_append.1 hts
    obtain ⟨rs', fault', hsteady, hpasses⟩ := ih hbefore
    have ht : t.asks = false := hlast t (List.mem_singleton_self t)
    obtain ⟨rs'', fault'', hsteady', htakes⟩ := steady_of_step hsteady ht hr
    obtain ⟨-, hfailed, hlost⟩ := untroubled_of_step hsteady.untroubled hr
    have hworks := work_of_unstopped hsteady.coupled hsteady.untroubled hsteady.ahead htakes hr
    refine ⟨rs'', fault'', hsteady', ?_, ?_, ?_, ?_, ?_⟩
    · rw [operations, log_concat _ hq hr, List.filterMap_append, List.append_assoc, htakes.records]
      exact hpasses.records
    · rw [sourceFaults, log_concat _ hq hr, List.append_assoc, htakes.faults]
      exact hpasses.faults
    · rw [history_turn_concat hq hr, Event.counts_append, hpasses.failed, hfailed]
      rfl
    · rw [history_turn_concat hq hr, Event.counts_append, hpasses.lost, hlost]
      rfl
    · have hbefore := hpasses.works
      rw [List.countP_append, List.countP_append]
      omega

/-! ## To the end -/

/-- Both have the same time and the same flush due next. -/
structure SameTime (p q : Pipeline ι σ) : Prop where
  clock : q.clock = p.clock
  nextFlush : q.nextFlush = p.nextFlush

theorem sameTime_of_aside (haside : t.reads = false) (hstays : ∀ ms, t ≠ .elapse ms)
    (h : p.step t = some q) : SameTime p q := by
  cases t with
  | dispatch =>
    simp only [step] at h
    split at h
    · cases h
    · rw [dispatch.eq_def] at h
      simp only [launch] at h
      constructor <;> grind
  | collect i =>
    simp only [step, collect, note_eq] at h
    constructor <;> grind
  | offer i =>
    simp only [step, offer, replace] at h
    constructor <;> grind
  | wake i =>
    simp only [step, wake] at h
    constructor <;> grind
  | clearRunning =>
    cases h
    exact ⟨rfl, rfl⟩
  | notify =>
    simp only [step] at h
    constructor <;> grind
  | elapse ms => exact absurd rfl (hstays ms)
  | read | flush now => cases haside

/-- How long the flush is overdue that is due next; zero unless it is due. -/
def overdue (p : Pipeline ι σ) : Nat := p.clock + 1 - p.nextFlush

/-- With no time passing a flush is less overdue than the one before it. -/
theorem overdue_of_step (hinterval : p.settings.commitInterval ≠ 0)
    (ht : t.works = true ∨ t.flushes = true) (h : p.step t = some q) :
    [t].countP Turn.flushes + q.overdue ≤ p.overdue := by
  have hpos : 0 < p.settings.commitInterval.toNat := by
    rw [Nat.pos_iff_ne_zero]
    exact fun hzero => hinterval (UInt64.toNat_inj.1 hzero)
  have hsame (hquiet : t.flushes = false) (hq : SameTime p q) :
      [t].countP Turn.flushes + q.overdue ≤ p.overdue := by
    rw [List.countP_singleton, hquiet, overdue, overdue, hq.clock, hq.nextFlush]
    exact Nat.le_of_eq (Nat.zero_add _)
  cases t with
  | read =>
    cases reads_of_read h with
    | aside elsewhere same running notice => exact absurd rfl elsewhere.1
    | begins phase =>
      rw [overdue, overdue, start, List.countP_singleton]
      simp only [Turn.flushes, Bool.false_eq_true, if_false]
      omega
    | _ => exact hsame rfl ⟨rfl, rfl⟩
  | flush now =>
    simp only [step, flush] at h
    split at h
    · split at h
      · next hdue =>
        cases h
        rw [flushDue, decide_eq_true_eq] at hdue
        rw [overdue, overdue, List.countP_singleton]
        simp only [Turn.flushes, if_true, flushAfter]
        split <;> omega
      · cases h
    · cases h
  | clearRunning | notify | elapse ms => simp [Turn.works, Turn.flushes] at ht
  | _ => exact hsame rfl (sameTime_of_aside rfl (by simp) h)

/-- A steady run can go on without time passing. -/
theorem goesOn_of_steady (hp : p.Steady rs fault) (hgoing : p.outcome? = none) (now : Millis) :
    ∃ t q, (t.works = true ∨ t = .flush now) ∧ p.step t = some q := by
  have hbusy : ¬ p.Listens := by
    rintro ⟨phase, -, -, hready⟩
    have hahead := hp.ahead
    rw [Ahead, hasLeft, phase] at hahead
    rw [sourceReady, bne_eq_false_iff_eq] at hready
    exact hahead.poll_ne_waiting hready
  rcases stirs_or_flushes hp.tame hgoing hbusy with (⟨t, q, ht, hq⟩ | ⟨i, ms, q, hwakes⟩) | hflushes
  · exact ⟨t, q, .inl ht, hq⟩
  · -- No delivery pauses, so none wakes up.
    obtain ⟨r, hr, hq, -⟩ := steps_cons hwakes
    cases hr
    obtain ⟨r, hr, -, -⟩ := steps_cons hq
    simp only [step, wake] at hr
    split at hr
    · next d hrunning =>
      rw [hp.untroubled.offering d (List.mem_of_getElem? hrunning)] at hr
      cases hr
    · cases hr
  · obtain ⟨q, hq⟩ := hflushes now
    exact ⟨.flush now, q, .inr rfl, hq⟩

/-- A steady run can be brought to its end without time passing, whatever the wall clock shows. -/
theorem ends_of_steady (hp : p.Steady rs fault) (hinterval : p.settings.commitInterval ≠ 0)
    (now : Millis) : ∃ ts q, (∀ t ∈ ts, t.works = true ∨ t = .flush now) ∧
      p.steps ts = some q ∧ q.outcome? ≠ none := by
  -- By induction on the work that is left and the flushes that are due.
  induction hn : p.workAhead rs + 4 * p.overdue using Nat.strong_induction_on
    generalizing p rs fault with
  | _ n ih =>
    by_cases hover : p.outcome? = none
    · obtain ⟨t, q, ht, hq⟩ := goesOn_of_steady hp hover now
      have hasks : t.asks = false := by
        rcases ht with ht | rfl
        · cases t with
          | clearRunning | notify => cases ht
          | _ => rfl
        · rfl
      have hcounts : [t].countP Turn.works + [t].countP Turn.flushes = 1 := by
        rcases ht with ht | rfl
        · cases t with
          | flush now | clearRunning | notify | elapse ms => cases ht
          | _ => rfl
        · rfl
      obtain ⟨rs', fault', hsteady, htakes⟩ := steady_of_step hp hasks hq
      have hworks := work_of_unstopped hp.coupled hp.untroubled hp.ahead htakes hq
      have hdue := overdue_of_step hinterval (ht.imp_right fun h => h ▸ rfl) hq
      have hsettings := settings_of_advance (advance_of_move (m := .turn t) hq)
      obtain ⟨ts, r, hts, hr, hends⟩ := ih _ (by omega) hsteady (hsettings ▸ hinterval) rfl
      refine ⟨t :: ts, r, List.forall_mem_cons.2 ⟨ht, hts⟩, ?_, hends⟩
      rw [steps, hq, Option.bind_some, hr]
    · exact ⟨[], p, by simp, rfl, hover⟩

/-! ## From rest -/

/-- What a run comes to that meets such a fault of its source, or none, and nothing else. -/
def outcomeOf : Option Fault → Except Fault Unit
  | none => .ok ()
  | some fault => .error fault

omit [Source ι] [Sink σ] in
theorem hasLeft_of_outcome {outcome : Except Fault Unit} (h : p.outcome? = some outcome) :
    p.hasLeft = true := by
  unfold outcome? at h
  unfold hasLeft
  cases hreader : p.reader with
  | returned outcome => rfl
  | _ => simp [hreader] at h

theorem steady_atRest {s : ProcessingSettings} {a : Aggregator}
    (ha : Aggregator.ofSettings s = .ok a) {source : ι} (hsource : Yields source rs fault)
    {sink : σ} (hsink : Sink.TakesAll sink) : (atRest a source sink).Steady rs fault where
  unstopped := ⟨rfl, fun hbegun => absurd rfl hbegun⟩
  ahead := hsource
  coupled := Aggregator.coupled_ofSettings ha
  untroubled := ⟨hsink, fun d hd => (List.not_mem_nil hd).elim,
    fun outcome houtcome => (List.not_mem_nil houtcome).elim, rfl, fun hclosed => by cases hclosed⟩
  tame := (idle_atRest ha source sink).toFresh.tame

/-- A run that is over has taken in all that the source yielded, and has come to what the source
came to. -/
theorem outcome_of_steady (hp : p.Idle) (hsteady : p.Steady rs fault)
    (hts : ∀ t ∈ ts, t.asks = false) (h : p.steps ts = some q) {outcome : Except Fault Unit}
    (hover : q.outcome? = some outcome) :
    (p.operations ts).filterMap Operation.record? = rs ∧ outcome = outcomeOf fault := by
  obtain ⟨rs', fault', hsteady', hpasses⟩ := passes_of_steps hsteady hts h
  have hahead := hsteady'.ahead
  rw [Ahead, if_pos (hasLeft_of_outcome hover)] at hahead
  obtain ⟨rfl, rfl⟩ := hahead
  refine ⟨(List.append_nil _).symm.trans hpasses.records, ?_⟩
  obtain ⟨reading, hverdict, rfl⟩ := (accounts_of_steps hp h hover).verdict
  have hfaults := hpasses.faults
  rw [Option.toList_none, List.append_nil] at hfaults
  rw [hfaults, hpasses.lost] at hverdict
  cases fault with
  | none => exact (conclude_eq_ok_iff hverdict).2 ⟨rfl, rfl, hsteady'.untroubled.failure⟩
  | some fault =>
    exact (conclude_of_fault hverdict (List.mem_singleton_self fault)).1
      (.inr hsteady'.untroubled.failure)

end Pipeline

end WindowTally
