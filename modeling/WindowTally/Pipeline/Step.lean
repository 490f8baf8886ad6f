import WindowTally.Pipeline.Basic

/-!
# The steps of a pipeline

`Pipeline.step p l` is the state after the step `l`, or `none` if the party that
would take it has to wait. Every order of such steps is a possible run: the
parties are independent, and time may pass between any two steps. Records come in by
`Pipeline.send` where the source is a channel.

A queue and slots of any size are made here, and room for the windows of any record;
`Pipeline.carry` says what becomes of a step where that cannot be.
-/
namespace WindowTally

/-- Who takes a step. -/
inductive Turn where
  /-- The reader goes on. -/
  | read
  /-- The reader flushes, the wall clock showing `now`. -/
  | flush (now : Millis)
  /-- The dispatcher goes on with the queue. -/
  | dispatch
  /-- The dispatcher collects the `i`th ended delivery. -/
  | collect (i : Nat)
  /-- The `i`th running delivery offers its word count to the sink. -/
  | offer (i : Nat)
  /-- The pause of the `i`th running delivery is over. -/
  | wake (i : Nat)
  /-- A handle clears the running flag. -/
  | clearRunning
  /-- A handle that has cleared the flag leaves its notice. -/
  | notify
  /-- Time passes. -/
  | elapse (ms : Nat)
  deriving DecidableEq, Repr

/-- What a sender learns. -/
inductive SendAnswer where
  | sent
  | full
  | closed
  deriving DecidableEq, Repr

namespace Pipeline

variable {ι σ : Type}

/-- Begin the run.
mirrors `driver.PipelineDriver.run`, up to its first look at the flag -/
def start (p : Pipeline ι σ) : Pipeline ι σ :=
  { p with
    running := true
    nextFlush := p.clock + p.settings.commitInterval.toNat
    reader := .checking }

/-- Leave reading with an outcome. -/
def finish (p : Pipeline ι σ) (outcome : Except Fault Unit) : Pipeline ι σ :=
  { p with running := false, reader := .finishing outcome }

/-- Hand a word count to the queue. A closed queue refuses it, and a full one makes the sender
wait.
mirrors `dispatcher.Dispatcher.dispatch` -/
def enqueue (p : Pipeline ι σ) (c : WordCount) : Option (Except DeliveryFault (Pipeline ι σ)) :=
  if p.queueClosed then some (.error .closed)
  else if p.queue.length < p.queueSize then some (.ok { p with queue := p.queue ++ [c] })
  else none

/-- Queue the first of several counts, or leave reading if it is refused. `next` is the phase for
those that remain.
mirrors `driver.forward` -/
def forward (p : Pipeline ι σ) (c : WordCount) (next : ReaderPhase) : Option (Pipeline ι σ) :=
  match p.enqueue c with
  | some (.ok q) => some { q with reader := next }
  | some (.error fault) => some (p.finish (.error (.delivery fault)))
  | none => none

/-- Take in a record and go on to queue what it emits. -/
def takeIn (p : Pipeline ι σ) (r : Record) : Pipeline ι σ :=
  let (counts, aggregator) := p.aggregator.ingest r
  { p with aggregator := aggregator, reader := .forwarding counts }

/-- Ask the source for a record.
mirrors `driver.PipelineDriver.drive`, for the source -/
def poll [Source ι] (p : Pipeline ι σ) : Pipeline ι σ :=
  let (polled, source) := Source.poll p.source
  let p := { p with source := source }
  match polled with
  | .record r => p.takeIn r
  | .ended => { p with reader := .closing }
  | .failed fault => p.finish (.error fault)
  | .waiting => { p with reader := .waiting }

/-- Whether the source has something to answer. -/
def sourceReady [Source ι] (p : Pipeline ι σ) : Bool := (Source.poll p.source).1 != .waiting

/-- Emit what is still open, if the settings ask for it.
mirrors `driver.PipelineDriver.drive`, after its loop -/
def close (p : Pipeline ι σ) : Pipeline ι σ :=
  if p.settings.flushOnClose then
    let (counts, aggregator) := p.aggregator.drain
    { p with aggregator := aggregator, reader := .forwardingLast counts }
  else p.finish (.ok ())

/-- What a run comes to: a fault of the source goes before any failure of a delivery, and that
before a closed queue, whoever says that it is closed.
mirrors `driver.PipelineDriver.run`, after reading -/
def conclude (reading : Except Fault Unit) (failure : Option DeliveryFault) : Except Fault Unit :=
  match reading, failure with
  | .ok _, none => .ok ()
  | .ok _, some fault => .error (.delivery fault)
  | .error (.delivery .closed), some fault => .error (.delivery fault)
  | .error fault, _ => .error fault

/-- The reader's step.
mirrors `driver.PipelineDriver.drive` -/
def read [Source ι] (p : Pipeline ι σ) : Option (Pipeline ι σ) :=
  match p.reader with
  | .idle => some p.start
  | .checking => some { p with reader := if p.running then .waiting else .closing }
  | .waiting =>
    if p.notice then some { p with notice := false, reader := .closing }
    else if p.flushDue || p.sourceReady then some { p with reader := .polling }
    else none
  | .polling => if p.flushDue then none else some p.poll
  | .forwarding [] => some { p with reader := .checking }
  | .forwarding (c :: cs) => p.forward c (.forwarding cs)
  | .closing => some p.close
  | .forwardingLast [] => some (p.finish (.ok ()))
  | .forwardingLast (c :: cs) => p.forward c (.forwardingLast cs)
  | .finishing reading =>
    match p.dispatcher with
    | .finished => some { p with reader := .returned (conclude reading p.failure) }
    | _ => none
  | .returned _ => none

/-- When the flush after one that was due at `due` and came at `now` is due. A flush that came
more than five milliseconds late puts off those that follow. -/
def flushAfter (due now period : Nat) : Nat := if due + 5 < now then now + period else due + period

/-- The reader flushes, if it is its turn to.
mirrors `driver.PipelineDriver.drive`, for the timer -/
def flush (p : Pipeline ι σ) (now : Millis) : Option (Pipeline ι σ) :=
  match p.reader with
  | .polling =>
    if p.flushDue then
      let (counts, aggregator) := p.aggregator.flush now
      some { p with
        aggregator := aggregator
        nextFlush := flushAfter p.nextFlush p.clock p.settings.commitInterval.toNat
        reader := .forwarding counts }
    else none
  | _ => none

/-- Start the delivery of a word count in a free slot.
mirrors `dispatcher.spawn_delivery` -/
def launch (p : Pipeline ι σ) (c : WordCount) (next : DispatcherPhase) : Option (Pipeline ι σ) :=
  if p.active.length < p.slots then
    some { p with active := p.active ++ [{ count := c }], dispatcher := next }
  else none

/-- The dispatcher's step on the queue.
mirrors `dispatcher.run`, for the queue -/
def dispatch (p : Pipeline ι σ) : Option (Pipeline ι σ) :=
  match p.dispatcher with
  | .serving =>
    match p.queue with
    | c :: cs => some { p with queue := cs, dispatcher := .holding c }
    | [] => if p.readerGone then some { p with dispatcher := .emptying } else none
  | .holding c => p.launch c .serving
  | .emptying =>
    match p.queue with
    | c :: cs => some { p with queue := cs, dispatcher := .holdingLast c }
    | [] => some { p with dispatcher := .joining }
  | .holdingLast c => p.launch c .emptying
  | .joining =>
    if p.active.isEmpty && p.settled.isEmpty then some { p with dispatcher := .finished } else none
  | .finished => none

/-- Collect an outcome; the first failure is kept.
mirrors `dispatcher.settle` and what `dispatcher.run` keeps of it -/
def note (p : Pipeline ι σ) (outcome : Except DeliveryFault Unit) : Pipeline ι σ :=
  match outcome, p.failure with
  | .error fault, none => { p with failure := some fault }
  | _, _ => p

/-- The dispatcher collects an ended delivery. A failure found while serving closes the queue.
mirrors `dispatcher.run`, for the deliveries -/
def collect (p : Pipeline ι σ) (i : Nat) : Option (Pipeline ι σ) :=
  match p.settled[i]? with
  | none => none
  | some outcome =>
    let q := { p with settled := p.settled.eraseIdx i }.note outcome
    match p.dispatcher with
    | .serving =>
      some (if q.failure.isSome then { q with dispatcher := .emptying } else q)
    | .joining => some q
    | _ => none

/-- Account for the answer that a delivery got.
mirrors `stats.StatsTracker`, for deliveries -/
def countAnswer (s : Stats) (d : Delivery) : Stats :=
  match d.phase with
  | .offering => s
  | .pausing _ => { s with retries := s.retries + 1 }
  | .settled (.ok _) => { s with delivered := s.delivered + 1 }
  | .settled (.error _) => { s with failed := s.failed + 1 }

/-- Put a delivery back in its place, or among the ended ones. -/
def replace (p : Pipeline ι σ) (i : Nat) (d : Delivery) : Pipeline ι σ :=
  match d.outcome? with
  | some outcome =>
    { p with active := p.active.eraseIdx i, settled := p.settled ++ [outcome] }
  | none => { p with active := p.active.set i d }

/-- A delivery offers its word count.
mirrors `dispatcher.deliver_with_retry` -/
def offer [Sink σ] (p : Pipeline ι σ) (i : Nat) : Option (Pipeline ι σ) :=
  match p.active[i]? with
  | some d =>
    match d.phase with
    | .offering =>
      let (answer, sink) := Sink.deliver p.sink d.count
      let d := d.resolve p.settings.delivery p.clock answer
      let aggregator := { p.aggregator with stats := countAnswer p.stats d }
      some ({ p with sink := sink, aggregator := aggregator }.replace i d)
    | _ => none
  | none => none

/-- A delivery whose pause is over offers again.
mirrors `dispatcher.deliver_with_retry`, after its pause -/
def wake (p : Pipeline ι σ) (i : Nat) : Option (Pipeline ι σ) :=
  match p.active[i]? with
  | some d =>
    match d.phase with
    | .pausing t =>
      if t ≤ p.clock then some { p with active := p.active.set i { d with phase := .offering } }
      else none
    | _ => none
  | none => none

/-- The state after a step, if the party that takes it need not wait. -/
def step [Source ι] [Sink σ] (p : Pipeline ι σ) : Turn → Option (Pipeline ι σ)
  | .read => p.read
  | .flush now => p.flush now
  | .dispatch => if p.reader matches .idle then none else p.dispatch
  | .collect i => p.collect i
  | .offer i => p.offer i
  | .wake i => p.wake i
  | .clearRunning => some { p with running := false, halfStops := p.halfStops + 1 }
  | .notify =>
    match p.halfStops with
    | 0 => none
    | n + 1 => some { p with notice := true, halfStops := n }
  | .elapse ms => some { p with clock := p.clock + ms }

/-- The state after several steps, if each can be taken. -/
def steps [Source ι] [Sink σ] (p : Pipeline ι σ) : List Turn → Option (Pipeline ι σ)
  | [] => some p
  | t :: ts => (p.step t).bind fun q => q.steps ts

/-- A request to stop, made at one go.
mirrors `driver.PipelineHandle.stop` -/
def stop (p : Pipeline ι σ) : Pipeline ι σ := { p with running := false, notice := true }

/-- Send a record to the pipeline. Its end of the channel is gone once the run is over. -/
def send (p : Pipeline ChannelSource σ) (r : Record) : SendAnswer × Pipeline ChannelSource σ :=
  match p.outcome? with
  | some _ => (.closed, p)
  | none =>
    match p.source.send? r with
    | some source => (.sent, { p with source := source })
    | none => (.full, p)

/-- Send nothing more. -/
def hangUp (p : Pipeline ChannelSource σ) : Pipeline ChannelSource σ :=
  { p with source := p.source.hangUp }

end Pipeline

end WindowTally
