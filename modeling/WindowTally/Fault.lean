import WindowTally.Text.Utf8
import WindowTally.Window.Hopping

/-!
# What can go wrong

Faults are causes; `message` gives the text of each.
-/
namespace WindowTally

/-- Why a word count was not delivered.
mirrors `error.DeliveryError` -/
inductive DeliveryFault where
  | rejected (word windowId reason : String)
  | exhausted (word windowId : String) (attempts : UInt32) (last : String)
  | taskFailed (reason : String)
  | closed
  deriving DecidableEq, Repr

/-- mirrors `error.DeliveryError.fmt` -/
def DeliveryFault.message : DeliveryFault → String
  | rejected word windowId reason =>
    s!"sink rejected record for '{word}' in window {windowId}: {reason}"
  | exhausted word windowId attempts last =>
    s!"giving up on '{word}' in window {windowId} after {attempts} attempts: {last}"
  | taskFailed reason => s!"delivery task failed: {reason}"
  | closed => "egress dispatcher closed"

/-- Why settings are refused. -/
inductive SettingsFault where
  | negativeAdvance
  | negativeGrace
  | negativeAllowance
  | noCommitInterval
  | blankStore
  | nothingInFlight
  | noBuffer
  | backoffAboveLimit
  | logFilter (level reason : String)
  | other (reason : String)
  deriving DecidableEq, Repr

/-- mirrors the texts of `config.ProcessorConfig.validate` and `config.EgressConfig.validate` -/
def SettingsFault.message : SettingsFault → String
  | negativeAdvance => "advance_by_ms must not be negative, use 0 for tumbling windows"
  | negativeGrace => "grace_ms must not be negative"
  | negativeAllowance => "max_out_of_order_ms must not be negative"
  | noCommitInterval => "commit_interval_ms must be greater than 0"
  | blankStore => "store_name must not be empty"
  | nothingInFlight => "egress max_in_flight must be greater than 0"
  | noBuffer => "egress buffer_size must be greater than 0"
  | backoffAboveLimit => "egress max_backoff_ms must not be smaller than base_backoff_ms"
  | logFilter level reason => s!"invalid log level '{level}': {reason}"
  | other reason => reason

/-- Why a source of records failed. -/
inductive SourceFault where
  | notText (fault : Utf8.Fault)
  | broken (reason : String)
  deriving DecidableEq, Repr

def SourceFault.message : SourceFault → String
  | notText fault => fault.message
  | broken reason => reason

/-- Any fault of the pipeline.
mirrors `error.ProcessorError` -/
inductive Fault where
  | window (fault : HoppingFault)
  | delivery (fault : DeliveryFault)
  | settings (fault : SettingsFault)
  | source (fault : SourceFault)
  | serialization (reason : String)
  deriving DecidableEq, Repr

/-- mirrors `error.ProcessorError.fmt` -/
def Fault.message : Fault → String
  | window fault => "window error: " ++ fault.message
  | delivery fault => "delivery error: " ++ fault.message
  | settings fault => "configuration error: " ++ fault.message
  | source fault => "ingress error: " ++ fault.message
  | serialization reason => "serialization error: " ++ reason

end WindowTally
