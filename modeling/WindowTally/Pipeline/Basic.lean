import WindowTally.Aggregator
import WindowTally.Delivery.Attempt
import WindowTally.Source.Basic

/-!
# The pipeline

Four kinds of parties share the state of a running pipeline.

* The **reader** takes records from the source, aggregates them, and queues every
  word count that is emitted. It looks for a request to stop before it waits for a
  record, flushes whenever a flush is due, and waits while the queue is full.
* The **dispatcher** takes word counts from the queue and starts a delivery for
  each as soon as a slot is free. The first delivery that fails for good makes it
  close the queue; what is queued by then is still delivered.
* The **deliveries** offer their word counts to the sink, with pauses.
* The **handles** ask the reader to stop: they clear the flag that says it is
  running, and then leave a notice for it.

This module holds the state; `Pipeline.Step` says what each party does.
-/
namespace WindowTally

/-- Where the reader stands. -/
inductive ReaderPhase where
  /-- The run has not begun. -/
  | idle
  /-- About to look whether it is still meant to run. -/
  | checking
  /-- Waiting for a notice to stop, a flush that is due, or a record. -/
  | waiting
  /-- Past the look for a notice, about to flush or to poll. -/
  | polling
  /-- Queueing what was emitted, then going on. -/
  | forwarding (counts : List WordCount)
  /-- Done with the source, about to drain. -/
  | closing
  /-- Queueing what the drain emitted, then finishing. -/
  | forwardingLast (counts : List WordCount)
  /-- Waiting for the dispatcher, with the outcome of reading. -/
  | finishing (outcome : Except Fault Unit)
  /-- The run is over. -/
  | returned (outcome : Except Fault Unit)
  deriving Repr

/-- Where the dispatcher stands. -/
inductive DispatcherPhase where
  /-- Taking what is queued and collecting deliveries that have ended. -/
  | serving
  /-- Holding a word count until a slot is free, then serving on. -/
  | holding (c : WordCount)
  /-- The queue is closed; taking what is left in it. -/
  | emptying
  /-- Holding one of those until a slot is free. -/
  | holdingLast (c : WordCount)
  /-- Collecting the deliveries that still run. -/
  | joining
  /-- Done. -/
  | finished
  deriving Repr

/-- A pipeline that reads from an `ι` and delivers to a `σ`.
mirrors `driver.PipelineDriver.run` and `dispatcher.run`, between two of their steps -/
structure Pipeline (ι σ : Type) where
  aggregator : Aggregator
  source : ι
  sink : σ
  /-- The flag that handles clear and look at. -/
  running : Bool := false
  /-- A notice to stop that the reader has not seen. -/
  notice : Bool := false
  /-- Requests to stop that have cleared the flag and left no notice yet. -/
  halfStops : Nat := 0
  reader : ReaderPhase := .idle
  queue : List WordCount := []
  dispatcher : DispatcherPhase := .serving
  /-- The deliveries that run, in the order in which they were started. -/
  active : List Delivery := []
  /-- How deliveries ended that the dispatcher has not collected. -/
  settled : List (Except DeliveryFault Unit) := []
  /-- The first failure that the dispatcher collected. -/
  failure : Option DeliveryFault := none
  /-- Milliseconds since the start. -/
  clock : Nat := 0
  /-- When the next flush is due. -/
  nextFlush : Nat := 0

namespace Pipeline

variable {ι σ : Type}

/-- The settings the pipeline runs with. -/
def settings (p : Pipeline ι σ) : ProcessingSettings := p.aggregator.settings

/-- How many word counts the queue holds at most.
mirrors `dispatcher.Dispatcher.spawn` -/
def queueSize (p : Pipeline ι σ) : Nat := max p.settings.delivery.bufferSize.toNat 1

/-- How many deliveries run at once at most.
mirrors `dispatcher.run` -/
def slots (p : Pipeline ι σ) : Nat := max p.settings.delivery.maxInFlight.toNat 1

/-- Whether the queue takes nothing more. -/
def queueClosed (p : Pipeline ι σ) : Bool :=
  match p.dispatcher with
  | .serving | .holding _ => false
  | _ => true

/-- Whether the reader will queue nothing more. -/
def readerGone (p : Pipeline ι σ) : Bool :=
  match p.reader with
  | .finishing _ | .returned _ => true
  | _ => false

/-- Whether a flush is due. -/
def flushDue (p : Pipeline ι σ) : Bool := p.nextFlush ≤ p.clock

/-- What the run came to, once it is over. -/
def outcome? (p : Pipeline ι σ) : Option (Except Fault Unit) :=
  match p.reader with
  | .returned outcome => some outcome
  | _ => none

/-- The statistics so far.
mirrors `driver.PipelineHandle.stats` -/
def stats (p : Pipeline ι σ) : Stats := p.aggregator.stats

/-- The open counts.
mirrors `driver.PipelineHandle.snapshot` -/
def snapshot (p : Pipeline ι σ) : List WordCount := p.aggregator.tally.entries

end Pipeline

end WindowTally
