import WindowTally.Pipeline.Step

/-!
# What a pipeline has no room for

Settings may ask for more than there can be: a queue has at most `maxPermits` places,
a dispatcher at most `maxPermits` slots, and no list holds more windows than
`Hopping.hasRoom` allows. `Pipeline.carry` is what becomes of a turn where the steps of
`Pipeline.Step` take all this for granted.

* The run breaks off where the queue is made, and where the windows of a record are
  listed (`Overrun`); it comes to nothing then, and what still goes on is not followed.
* The dispatcher breaks down when it first takes a turn: it starts nothing, the queue is
  closed, and what is in it is given up.
-/
namespace WindowTally

/-- What a run breaks off for. -/
inductive Overrun where
  /-- The queue cannot have so many places. -/
  | queue
  /-- The windows of a record cannot be listed. -/
  | windows
  deriving DecidableEq, Repr

namespace Pipeline

variable {ι σ : Type} [Source ι]

/-- What the run breaks off for if the reader takes its turn.
mirrors `dispatcher.Dispatcher.spawn` and `driver.PipelineDriver.process_record`, as far as they
panic -/
def overrun? (p : Pipeline ι σ) : Option Overrun :=
  match p.reader with
  | .idle => if p.queueSize ≤ maxPermits then none else some .queue
  | .polling =>
    match (Source.poll p.source).1 with
    | .record r => if (p.aggregator.ingest? r).isSome then none else some .windows
    | _ => none
  | _ => none

/-- Whether the dispatcher is to take a turn and has not made its slots, of which there are too
many. -/
def overcommitted (p : Pipeline ι σ) : Bool :=
  match p.reader, p.dispatcher with
  | .idle, _ => false
  | _, .serving => maxPermits < p.slots
  | _, _ => false

/-- The dispatcher ends with a failure of its own, which is described by `reason`, and takes the
queue with it.
mirrors `dispatcher.run` and `dispatcher.Dispatcher.finish` for a task that panics -/
def breakDown (p : Pipeline ι σ) (reason : String) : Pipeline ι σ :=
  { p with queue := [], dispatcher := .finished, failure := some (.taskFailed reason) }

variable [Sink σ]

/-- What a turn comes to, if the party that takes it need not wait: the state after it, or what the
run breaks off for. -/
def carry (reason : String) (p : Pipeline ι σ) : Turn → Option (Except Overrun (Pipeline ι σ))
  | .read =>
    p.read.map fun q =>
      match p.overrun? with
      | some overrun => .error overrun
      | none => .ok q
  | .dispatch =>
    if p.overcommitted then some (.ok (p.breakDown reason)) else (p.step .dispatch).map .ok
  | t => (p.step t).map .ok

/-- What several turns come to, if each can be taken until the run breaks off. -/
def carryAll (reason : String) (p : Pipeline ι σ) :
    List Turn → Option (Except Overrun (Pipeline ι σ))
  | [] => some (.ok p)
  | t :: ts =>
    match p.carry reason t with
    | some (.ok q) => q.carryAll reason ts
    | some (.error overrun) => some (.error overrun)
    | none => none

end Pipeline

end WindowTally
