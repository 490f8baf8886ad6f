import WindowTally.Pipeline.Limits

/-!
# Running a pipeline in virtual time

A scheduler that lets time pass only while every party waits. Whenever a party can
go on it takes a turn, the reader first, then the dispatcher, then the deliveries
in the order in which they were started; otherwise the clock jumps to the next
time that somebody waits for. `reason` describes a dispatcher that breaks down.
-/
namespace WindowTally.Pipeline

variable {ι σ : Type} [Source ι] [Sink σ] (reason : String)

/-- The wall clock, which showed `wall` at the start. -/
def wallClock (p : Pipeline ι σ) (wall : Millis) : Millis :=
  Int64.ofIntClamp (wall.toInt + p.clock)

/-- The first running delivery that is about to offer. -/
def offering? (p : Pipeline ι σ) : Option Nat :=
  p.active.findIdx? fun d => d.phase matches .offering

/-- The first running delivery whose pause is over. -/
def waking? (p : Pipeline ι σ) : Option Nat :=
  p.active.findIdx? fun d =>
    match d.phase with
    | .pausing t => t ≤ p.clock
    | _ => false

/-- The turns that the scheduler prefers, best first. -/
def turns (p : Pipeline ι σ) (wall : Millis) : List Turn :=
  [.read, .flush (p.wallClock wall), .dispatch, .collect 0] ++
    p.offering?.toList.map .offer ++ p.waking?.toList.map .wake

/-- What the first turn comes to that can be taken. -/
def next? (p : Pipeline ι σ) (wall : Millis) : Option (Except Overrun (Pipeline ι σ)) :=
  (p.turns wall).findSome? (p.carry reason)

/-- The times that the parties wait for. -/
def timers (p : Pipeline ι σ) : List Nat :=
  let wakes := p.active.filterMap fun d =>
    match d.phase with
    | .pausing t => some t
    | _ => none
  match p.reader with
  | .waiting | .polling => p.nextFlush :: wakes
  | _ => wakes

/-- Run until nothing is left to do, or nothing before the time `limit`, or the run breaks off. The
number bounds the turns. -/
def runFor (wall : Millis) (limit : Option Nat) :
    Nat → Pipeline ι σ → Except Overrun (Pipeline ι σ)
  | 0, p => .ok p
  | n + 1, p =>
    match p.next? reason wall with
    | some (.ok q) => runFor wall limit n q
    | some (.error overrun) => .error overrun
    | none =>
      match p.timers.min?, limit with
      | some t, none => runFor wall limit n { p with clock := max p.clock t }
      | some t, some l =>
        if t ≤ l then runFor wall limit n { p with clock := max p.clock t }
        else .ok { p with clock := max p.clock l }
      | none, some l => .ok { p with clock := max p.clock l }
      | none, none => .ok p

/-- A bound on the turns of a run, far beyond those that any run takes. -/
def manySteps : Nat := 1 <<< 62

/-- Run until every party waits, no time passing. -/
def runReady (p : Pipeline ι σ) (wall : Millis) : Except Overrun (Pipeline ι σ) :=
  runFor reason wall (some p.clock) manySteps p

/-- Run for so many milliseconds. -/
def advance (p : Pipeline ι σ) (wall : Millis) (ms : Nat) : Except Overrun (Pipeline ι σ) :=
  runFor reason wall (some (p.clock + ms)) manySteps p

/-- Run until the run is over. -/
def run (p : Pipeline ι σ) (wall : Millis) : Except Overrun (Pipeline ι σ) :=
  runFor reason wall none manySteps p

end WindowTally.Pipeline
