import WindowTally.Settings.Delivery
import WindowTally.Text.CodeRanges

/-!
# Processing settings

The windows to count in, when they close, how often the pipeline flushes, and how
it delivers. `ProcessingSettings.check` names the first rule that is broken.
-/
namespace WindowTally

/-- A length of time, as whole seconds and billionths of a second. -/
structure Span where
  secs : UInt64
  nanos : UInt32
  deriving DecidableEq, Repr

/-- The whole milliseconds of a length of time. -/
def Span.millis (d : Span) : Nat := d.secs.toNat * 1000 + d.nanos.toNat / 1000000

/-- How records are counted and delivered. Times are in milliseconds; an advance of zero makes
the windows tumble.
mirrors `config.ProcessorConfig` -/
structure ProcessingSettings where
  windowLength : Millis := 5000
  advance : Millis := 0
  grace : Millis := 0
  store : String := "WordCounts"
  commitInterval : UInt64 := 1000
  allowance : Millis := 0
  flushOnClose : Bool := true
  delivery : DeliverySettings := {}
  deriving DecidableEq, Repr

namespace ProcessingSettings

/-- Settings for windows that tile event time.
mirrors `config.ProcessorConfig.tumbling` -/
def tumbling (length : Millis) : ProcessingSettings := { windowLength := length }

/-- Settings for windows that overlap.
mirrors `config.ProcessorConfig.hopping` -/
def hopping (length advance : Millis) : ProcessingSettings :=
  { windowLength := length, advance := advance }

/-- Flush every `d`, kept as whole milliseconds in the low 64 bits.
mirrors `config.ProcessorConfig.with_commit_interval` -/
def withCommitInterval (s : ProcessingSettings) (d : Span) : ProcessingSettings :=
  { s with commitInterval := UInt64.ofNat d.millis }

/-- The windows to count in.
mirrors `config.ProcessorConfig.window_assigner` -/
def windows (s : ProcessingSettings) : Except Fault Hopping :=
  (Hopping.make s.windowLength s.advance).mapError Fault.window

/-- The first rule that the settings break, if any.
mirrors `config.ProcessorConfig.validate` -/
def check (s : ProcessingSettings) : Except Fault Unit :=
  match s.windows with
  | .error fault => .error fault
  | .ok _ =>
    if s.advance < 0 then .error (.settings .negativeAdvance)
    else if s.grace < 0 then .error (.settings .negativeGrace)
    else if s.allowance < 0 then .error (.settings .negativeAllowance)
    else if s.commitInterval = 0 then .error (.settings .noCommitInterval)
    else if Text.isBlank s.store then .error (.settings .blankStore)
    else s.delivery.check

end ProcessingSettings

end WindowTally
