import WindowTally.Pipeline.Step
import WindowTally.Proofs.Operations

/-!
# What happens to word counts

A run of a pipeline is seen here as what happens to the word counts in it: each is
emitted, then accepted or refused by the queue, its delivery is started, attempted,
and in the end delivered or failed. `Pipeline.events` reads off a move what happens
in it, and `Pipeline.history` does so for a run. A move is a step of the pipeline,
or a hand-over by someone other than the reader, so that any word counts in any
order may be handed to the queue.
-/
namespace WindowTally

/-- What can happen to a word count, from its emission on. -/
inductive Stage where
  /-- The aggregator emitted it. -/
  | emitted
  /-- The queue took it. -/
  | accepted
  /-- The closed queue refused it. -/
  | refused
  /-- It was emitted and is given up, because the queue refused it or one emitted before it. -/
  | lost
  /-- Its delivery was started. -/
  | started
  /-- It was offered to the sink. -/
  | attempted
  /-- The sink took it. -/
  | delivered
  /-- It ran out of retries. -/
  | failed
  deriving DecidableEq, Repr

/-- Something that happens to a word count. -/
structure Event where
  stage : Stage
  count : WordCount
  deriving DecidableEq, Repr

namespace Event

/-- The word counts that something happens to, in that order. -/
def counts (stage : Stage) (es : List Event) : List WordCount :=
  (es.filter fun e => e.stage = stage).map (·.count)

@[simp]
theorem counts_nil (stage : Stage) : counts stage [] = [] := rfl

@[simp]
theorem counts_cons (stage : Stage) (e : Event) (es : List Event) :
    counts stage (e :: es) =
      if e.stage = stage then e.count :: counts stage es else counts stage es := by
  unfold counts
  by_cases h : e.stage = stage <;> simp [h]

@[simp]
theorem counts_append (stage : Stage) (es es' : List Event) :
    counts stage (es ++ es') = counts stage es ++ counts stage es' := by
  simp [counts]

theorem counts_concat_of_ne {stage : Stage} {es : List Event} {e : Event} (h : e.stage ≠ stage) :
    counts stage (es ++ [e]) = counts stage es := by
  rw [counts_append, counts_cons, if_neg h, counts_nil, List.append_nil]

/-- The same thing happens to several word counts. -/
def each (stage : Stage) (cs : List WordCount) : List Event := cs.map fun c => ⟨stage, c⟩

@[simp]
theorem counts_each (stage stage' : Stage) (cs : List WordCount) :
    counts stage (each stage' cs) = if stage' = stage then cs else [] := by
  induction cs with
  | nil => simp [each]
  | cons c cs ih =>
    simp only [each, List.map_cons, counts_cons] at ih ⊢
    rw [ih]
    split <;> rfl

end Event

/-- What the parties do, in any order. -/
inductive Move where
  /-- One of the pipeline's own parties takes its turn. -/
  | turn (t : Turn)
  /-- Someone else hands a word count to the queue. -/
  | hand (c : WordCount)
  deriving DecidableEq, Repr

/-- The word counts still to be queued in a phase of the reader. -/
def ReaderPhase.remaining : ReaderPhase → List WordCount
  | .forwarding cs | .forwardingLast cs => cs
  | _ => []

namespace Pipeline

open Event (counts each)

variable {ι σ : Type}

/-- The word count that the dispatcher holds, if it holds one. -/
def held (p : Pipeline ι σ) : List WordCount :=
  match p.dispatcher with
  | .holding c | .holdingLast c => [c]
  | _ => []

/-- The word counts that are being delivered. -/
def underWay (p : Pipeline ι σ) : List WordCount := p.active.map (·.count)

/-- What the reader has taken from the aggregator and not queued yet. -/
def remaining (p : Pipeline ι σ) : List WordCount := p.reader.remaining

/-- The failure that an outcome reports, if it reports one. -/
def fault? : Except DeliveryFault Unit → Option DeliveryFault
  | .ok _ => none
  | .error fault => some fault

/-- The state after a move, if it can be made. Nothing is handed in once the reader has said that
nothing more will be. -/
def move [Source ι] [Sink σ] (p : Pipeline ι σ) : Move → Option (Pipeline ι σ)
  | .turn t => p.step t
  | .hand c =>
    if p.readerGone then none
    else
      match p.enqueue c with
      | some (.ok q) => some q
      | some (.error _) => some p
      | none => none

/-- The state after several moves, if each can be made. -/
def moves [Source ι] [Sink σ] (p : Pipeline ι σ) : List Move → Option (Pipeline ι σ)
  | [] => some p
  | m :: ms => (p.move m).bind fun q => q.moves ms

/-- The operation that the reader carries out on the aggregator when it takes a turn. -/
def operation? [Source ι] (p : Pipeline ι σ) : Turn → Option Operation
  | .read =>
    match p.reader with
    | .polling =>
      match (Source.poll p.source).1 with
      | .record r => some (.record r)
      | _ => none
    | .closing => if p.settings.flushOnClose then some .drain else none
    | _ => none
  | .flush now => some (.flush now)
  | _ => none

/-- What the reader takes from the aggregator in a turn. -/
def emits [Source ι] (p : Pipeline ι σ) (t : Turn) : List WordCount :=
  match p.operation? t with
  | some op => (p.aggregator.operate op).1
  | none => []

/-- What comes of handing in a word count. -/
def handed (p : Pipeline ι σ) (c : WordCount) : List Event :=
  match p.enqueue c with
  | some (.ok _) => [⟨.accepted, c⟩]
  | some (.error _) => [⟨.refused, c⟩]
  | none => []

/-- What comes of the reader's next hand-over: once one is refused, the rest is given up. -/
def forwarded (p : Pipeline ι σ) : List Event :=
  match p.remaining with
  | [] => []
  | c :: cs => p.handed c ++ if p.queueClosed then each .lost (c :: cs) else []

/-- A delivery once the sink has answered it. -/
def answered [Sink σ] (p : Pipeline ι σ) (d : Delivery) : Delivery :=
  d.resolve p.settings.delivery p.clock (Sink.deliver p.sink d.count).1

/-- How a delivery ends with an outcome. -/
def ending : Except DeliveryFault Unit → Stage
  | .ok _ => .delivered
  | .error _ => .failed

/-- What comes of offering a word count to the sink. -/
def offered [Sink σ] (p : Pipeline ι σ) (d : Delivery) : List Event :=
  ⟨.attempted, d.count⟩ ::
    match (p.answered d).phase with
    | .settled outcome => [⟨ending outcome, d.count⟩]
    | _ => []

/-- What happens in a move. -/
def events [Source ι] [Sink σ] (p : Pipeline ι σ) : Move → List Event
  | .hand c => p.handed c
  | .turn .read => each .emitted (p.emits .read) ++ p.forwarded
  | .turn (.flush now) => each .emitted (p.emits (.flush now))
  | .turn .dispatch => each .started p.held
  | .turn (.offer i) =>
    match p.active[i]? with
    | some d => p.offered d
    | none => []
  | .turn _ => []

section
variable [Source ι] [Sink σ] (p : Pipeline ι σ)

theorem events_read :
    p.events (.turn .read) = each .emitted (p.emits .read) ++ p.forwarded := rfl

theorem events_flush (now : Millis) :
    p.events (.turn (.flush now)) = each .emitted (p.emits (.flush now)) := rfl

theorem events_dispatch : p.events (.turn .dispatch) = each .started p.held := rfl

theorem events_offer {i : Nat} {d : Delivery} (h : p.active[i]? = some d) :
    p.events (.turn (.offer i)) = p.offered d := by
  have hcases : p.events (.turn (.offer i)) =
      match p.active[i]? with
      | some d => p.offered d
      | none => [] := rfl
  rw [hcases, h]

theorem events_offer_none {i : Nat} (h : p.active[i]? = none) :
    p.events (.turn (.offer i)) = [] := by
  have hcases : p.events (.turn (.offer i)) =
      match p.active[i]? with
      | some d => p.offered d
      | none => [] := rfl
  rw [hcases, h]

end

/-- What happens in a run. -/
def history [Source ι] [Sink σ] (p : Pipeline ι σ) : List Move → List Event
  | [] => []
  | m :: ms =>
    p.events m ++
      match p.move m with
      | some q => q.history ms
      | none => []

section
variable [Source ι] [Sink σ] {p q r : Pipeline ι σ}

theorem moves_cons {m : Move} {ms : List Move} (h : p.moves (m :: ms) = some r) :
    ∃ q, p.move m = some q ∧ q.moves ms = some r ∧
      p.history (m :: ms) = p.events m ++ q.history ms := by
  rw [moves] at h
  obtain ⟨q, hq, hr⟩ := Option.bind_eq_some_iff.1 h
  refine ⟨q, hq, hr, ?_⟩
  rw [history, hq]

theorem moves_turn (ts : List Turn) : p.moves (ts.map .turn) = p.steps ts := by
  induction ts generalizing p with
  | nil => rfl
  | cons t ts ih =>
    rw [List.map_cons, moves, steps]
    exact congrArg _ (funext fun q => ih)

theorem steps_cons {t : Turn} {ts : List Turn} (h : p.steps (t :: ts) = some r) :
    ∃ q, p.step t = some q ∧ q.steps ts = some r ∧ p.history ((t :: ts).map .turn) =
      p.events (.turn t) ++ q.history (ts.map .turn) := by
  rw [← moves_turn, List.map_cons] at h
  obtain ⟨q, hq, hr, hhistory⟩ := moves_cons h
  rw [moves_turn] at hr
  exact ⟨q, hq, hr, hhistory⟩

/-! ### One move more -/

theorem moves_append (ms ms' : List Move) :
    p.moves (ms ++ ms') = (p.moves ms).bind fun q => q.moves ms' := by
  induction ms generalizing p with
  | nil => rfl
  | cons m ms ih =>
    rw [List.cons_append, moves, moves, Option.bind_assoc]
    exact congrArg _ (funext fun q => ih)

theorem moves_concat {ms : List Move} {m : Move} (h : p.moves (ms ++ [m]) = some r) :
    ∃ q, p.moves ms = some q ∧ q.move m = some r := by
  rw [moves_append] at h
  obtain ⟨q, hq, hr⟩ := Option.bind_eq_some_iff.1 h
  obtain ⟨r', hr', hend⟩ := Option.bind_eq_some_iff.1 hr
  cases hend
  exact ⟨q, hq, hr'⟩

theorem steps_append {ts us : List Turn} (hq : p.steps ts = some q) (hr : q.steps us = some r) :
    p.steps (ts ++ us) = some r := by
  rw [← moves_turn, List.map_append, moves_append, moves_turn, hq, Option.bind_some, moves_turn, hr]

theorem steps_concat {ts : List Turn} {t : Turn} (hq : p.steps ts = some q)
    (hr : q.step t = some r) : p.steps (ts ++ [t]) = some r := by
  refine steps_append hq ?_
  rw [steps, hr]
  rfl

theorem history_concat {ms : List Move} {m : Move} (hq : p.moves ms = some q)
    (hr : q.move m = some r) : p.history (ms ++ [m]) = p.history ms ++ q.events m := by
  induction ms generalizing p with
  | nil =>
    cases hq
    simp only [List.nil_append, history, hr, List.append_nil]
  | cons m' ms ih =>
    obtain ⟨p', hp', hq', hhistory⟩ := moves_cons hq
    rw [hhistory, List.cons_append, history, hp', List.append_assoc]
    exact congrArg _ (ih hq')

theorem history_turn_concat {ts : List Turn} {t : Turn} (hq : p.steps ts = some q)
    (hr : q.step t = some r) : p.history ((ts ++ [t]).map .turn) =
      p.history (ts.map .turn) ++ q.events (.turn t) := by
  rw [← moves_turn] at hq
  rw [List.map_append]
  exact history_concat hq hr

/-- What holds at the start of a run and is kept by one move more holds at its end. -/
theorem run_induction {P : List Move → Pipeline ι σ → Prop} (start : P [] p)
    (more : ∀ {ms m q r}, p.moves ms = some q → q.move m = some r → P ms q → P (ms ++ [m]) r)
    {ms : List Move} (h : p.moves ms = some q) : P ms q := by
  induction ms using List.reverseRecOn generalizing q with
  | nil =>
    cases h
    exact start
  | append_singleton ms m ih =>
    obtain ⟨q', hq', hq⟩ := moves_concat h
    exact more hq' hq (ih hq')

/-- The same for runs of turns. -/
theorem steps_induction {P : List Turn → Pipeline ι σ → Prop} (start : P [] p)
    (more : ∀ {ts t q r}, p.steps ts = some q → q.step t = some r → P ts q → P (ts ++ [t]) r)
    {ts : List Turn} (h : p.steps ts = some q) : P ts q := by
  induction ts using List.reverseRecOn generalizing q with
  | nil =>
    cases h
    exact start
  | append_singleton ts t ih =>
    rw [← moves_turn, List.map_append] at h
    obtain ⟨q', hq', hq⟩ := moves_concat h
    rw [moves_turn] at hq'
    exact more hq' hq (ih hq')

end

end Pipeline

end WindowTally
