import WindowTally.Fault
import WindowTally.Record
import WindowTally.Schema
import WindowTally.Stats
import WindowTally.Watermark

/-!
# How records are read from JSON

The fields of what the program reports. All of these are complete: every field is
required.
-/
namespace WindowTally

def Window.schema : Schema Window where
  name := "Window"
  base := ⟨0, 0⟩
  complete := true
  fields := [
    .ofKind "start" .millis fun t w => { w with start := t },
    .ofKind "end" .millis fun t w => { w with stop := t }]

def WordCount.schema : Schema WordCount where
  name := "WordCount"
  base := ⟨"", 0, ⟨0, 0⟩⟩
  complete := true
  fields := [
    .ofKind "word" .text fun t c => { c with word := t },
    .ofKind "count" .word64 fun n c => { c with count := n },
    .ofKind "start" .millis fun t c => { c with window := { c.window with start := t } },
    .ofKind "end" .millis fun t c => { c with window := { c.window with stop := t } }]

def Watermark.schema : Schema Watermark where
  name := "Watermark"
  base := {}
  complete := true
  fields := [.ofKind "timestamp" .millis fun t _ => ⟨t⟩]

def LateTokens.schema : Schema LateTokens where
  name := "LateEventStats"
  base := {}
  complete := true
  fields := [
    .ofKind "dropped_count" .word64 fun n l => { l with dropped := n },
    .ofKind "accepted_count" .word64 fun n l => { l with accepted := n },
    .ofKind "max_lateness_ms" .millis fun t l => { l with largest := t }]

def Stats.schema : Schema Stats where
  name := "PipelineStats"
  base := {}
  complete := true
  fields := [
    .ofKind "records_ingested" .word64 fun n s => { s with records := n },
    .ofKind "malformed_records" .word64 fun n s => { s with malformed := n },
    .ofKind "tokens_counted" .word64 fun n s => { s with counted := n },
    .ofKind "late_tokens_dropped" .word64 fun n s => { s with lateDropped := n },
    .ofKind "windows_emitted" .word64 fun n s => { s with windows := n },
    .ofKind "word_counts_emitted" .word64 fun n s => { s with emitted := n },
    .ofKind "word_counts_delivered" .word64 fun n s => { s with delivered := n },
    .ofKind "word_counts_failed" .word64 fun n s => { s with failed := n },
    .ofKind "delivery_retries" .word64 fun n s => { s with retries := n },
    .ofKind "current_watermark" .millis fun t s => { s with watermark := t },
    .ofKind "open_windows" .word64 fun n s => { s with openWindows := n }]

/-- Read a record from a JSON text; a document that says something else than is wanted is a
serialization fault. -/
def Schema.parse {α : Type} (s : Schema α) (text : String) : Except Json.ReadFault α :=
  Json.Reader.readText s.json text.toList

/-- The fault of a value that is not the wanted one. -/
def Json.Mismatch.fault (m : Json.Mismatch) : Fault := .serialization m.message

end WindowTally
