import WindowTally.Schema
import WindowTally.Settings.App

/-!
# How settings are read

The fields of each group of settings, with the names they go by. Every group is
open: what is not given keeps its default.
-/
namespace WindowTally

def DeliverySettings.schema : Schema DeliverySettings where
  name := "EgressConfig"
  base := {}
  complete := false
  fields := [
    .ofKind "max_retries" .word32 fun n s => { s with maxRetries := n },
    .ofKind "base_backoff_ms" .word64 fun n s => { s with baseBackoff := n },
    .ofKind "max_backoff_ms" .word64 fun n s => { s with maxBackoff := n },
    .ofKind "max_in_flight" .size fun n s => { s with maxInFlight := n },
    .ofKind "buffer_size" .size fun n s => { s with bufferSize := n }]

def ProcessingSettings.schema : Schema ProcessingSettings where
  name := "ProcessorConfig"
  base := {}
  complete := false
  fields := [
    .ofKind "window_length_ms" .millis (fun t s => { s with windowLength := t })
      ["windowLengthMs"],
    .ofKind "advance_by_ms" .millis (fun t s => { s with advance := t }) ["advanceByMs"],
    .ofKind "grace_ms" .millis (fun t s => { s with grace := t }) ["graceMs"],
    .ofKind "store_name" .text (fun t s => { s with store := t }) ["storeName"],
    .ofKind "commit_interval_ms" .word64 (fun n s => { s with commitInterval := n })
      ["commitIntervalMs"],
    .ofKind "max_out_of_order_ms" .millis (fun t s => { s with allowance := t })
      ["maxOutOfOrderMs"],
    .ofKind "flush_on_close" .flag (fun b s => { s with flushOnClose := b }) ["flushOnClose"],
    .ofKind "egress" DeliverySettings.schema.kind fun d s => { s with delivery := d }]

def Bindings.schema : Schema Bindings where
  name := "BindingsConfig"
  base := {}
  complete := false
  fields := [
    .ofKind "input" .text fun t s => { s with input := t },
    .ofKind "output" .text fun t s => { s with output := t },
    .ofKind "content_type" .text (fun t s => { s with contentType := t }) ["contentType"]]

def Logging.schema : Schema Logging where
  name := "LoggingConfig"
  base := {}
  complete := false
  fields := [
    .ofKind "level" .text fun t s => { s with level := t },
    .ofKind "json" .flag fun b s => { s with json := b }]

def AppSettings.schema : Schema AppSettings where
  name := "AppConfig"
  base := {}
  complete := false
  fields := [
    .ofKind "processor" ProcessingSettings.schema.kind fun p s => { s with processing := p },
    .ofKind "bindings" Bindings.schema.kind fun b s => { s with bindings := b },
    .ofKind "logging" Logging.schema.kind fun l s => { s with logging := l }]

end WindowTally
