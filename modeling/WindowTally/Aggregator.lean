import WindowTally.Frontier
import WindowTally.Settings.Processing
import WindowTally.Stats
import WindowTally.Tally
import WindowTally.Text.Words

/-!
# The aggregator

Takes records one at a time, counts their words in the windows that are still
open, and emits the counts of every window that closes. Each operation returns
the word counts it emits, in the order in which their windows close and by word
within a window.
-/
namespace WindowTally

/-- The state of counting: the open counts, the closing frontier and the statistics.
mirrors `driver.PipelineDriver` -/
structure Aggregator where
  settings : ProcessingSettings
  windows : Hopping
  tally : Tally
  frontier : Frontier
  late : LateTokens := {}
  stats : Stats := {}

namespace Aggregator

/-- An aggregator from parts of its own; the settings are checked all the same.
mirrors `driver.PipelineDriver.from_parts` -/
def ofParts (settings : ProcessingSettings) (windows : Hopping) (tally : Tally)
    (frontier : Frontier) : Except Fault Aggregator :=
  settings.check.map fun _ =>
    { settings := settings, windows := windows, tally := tally, frontier := frontier }

/-- The aggregator that settings describe.
mirrors `driver.PipelineDriver.new` -/
def ofSettings (s : ProcessingSettings) : Except Fault Aggregator :=
  match s.windows with
  | .error fault => .error fault
  | .ok windows => ofParts s windows { store := s.store } (Frontier.make s.grace s.allowance)

/-- Drop one word that came too late. -/
def dropWord (a : Aggregator) (lateness : Millis) : Aggregator :=
  { a with
    stats := { a.stats with lateDropped := a.stats.lateDropped + 1 }
    late := a.late.drop lateness }

/-- Count one word in the open windows of its record. -/
def countWord (a : Aggregator) (adm : Admission) (word : String) : Aggregator :=
  { a with
    tally := a.tally.countAll word adm.opened
    stats := { a.stats with counted := a.stats.counted + 1 }
    late := if adm.isLateButOpen then a.late.accept adm.lateness else a.late }

/-- Count the words of a record, or drop them if none of its windows is open. -/
def countWords (a : Aggregator) (adm : Admission) (words : List String) : Aggregator :=
  if adm.isDropped then words.foldl (fun a _ => a.dropWord adm.lateness) a
  else words.foldl (fun a word => a.countWord adm word) a

/-- Count a payload, which is malformed unless it is text. -/
def countPayload (a : Aggregator) (adm : Admission) (payload : List UInt8) : Aggregator :=
  match Text.wordsOfBytes payload with
  | some words => a.countWords adm words
  | none => { a with stats := { a.stats with malformed := a.stats.malformed + 1 } }

/-- Emit the counts of one closed window, if it has any. -/
def emitWindow (a : Aggregator) (w : Window) : List WordCount × Aggregator :=
  match a.tally.takeOut w with
  | ([], _) => ([], a)
  | (counts, tally) =>
    (counts,
      { a with
        tally := tally
        stats := { a.stats with
          windows := a.stats.windows + 1
          emitted := a.stats.emitted + UInt64.ofNat counts.length } })

/-- Emit the counts of closed windows, one window after the other. -/
def emitWindows (a : Aggregator) : List Window → List WordCount × Aggregator
  | [] => ([], a)
  | w :: ws =>
    let (counts, a) := a.emitWindow w
    let (more, a) := a.emitWindows ws
    (counts ++ more, a)

/-- Emit the counts of closed windows and note how many windows stay open.
mirrors `driver.PipelineDriver.retire` -/
def retire (a : Aggregator) (closed : List Window) : List WordCount × Aggregator :=
  let (counts, a) := a.emitWindows closed
  let openWindows := UInt64.ofNat a.tally.openWindows.length
  (counts, { a with stats := { a.stats with openWindows := openWindows } })

/-- Take in one record, given the windows of its time: count its words in those that are open, then
close the windows that its time closes. -/
def ingestInto (a : Aggregator) (windows : List Window) (r : Record) :
    List WordCount × Aggregator :=
  let (adm, frontier) := a.frontier.enroll r.timestamp windows
  let a := { a with
    frontier := frontier
    stats := { a.stats with records := a.stats.records + 1 } }
  let a := a.countPayload adm r.payload
  let (closed, frontier) := a.frontier.onEvent r.timestamp
  let watermark := max a.stats.watermark frontier.watermark.timestamp
  let a := { a with frontier := frontier, stats := { a.stats with watermark := watermark } }
  a.retire closed

/-- Take in one record, room for its windows being made. -/
def ingest (a : Aggregator) (r : Record) : List WordCount × Aggregator :=
  a.ingestInto (a.windows.windowsAt r.timestamp) r

/-- Take in one record, unless no room can be made for its windows.
mirrors `driver.PipelineDriver.process_record` -/
def ingest? (a : Aggregator) (r : Record) : Option (List WordCount × Aggregator) :=
  (a.windows.assign? r.timestamp).map fun windows => a.ingestInto windows r

/-- Close the windows that a flush closes when the wall clock shows `now`.
mirrors `driver.PipelineDriver.flush` -/
def flush (a : Aggregator) (now : Millis) : List WordCount × Aggregator :=
  let (closed, frontier) := a.frontier.onFlush now
  { a with frontier := frontier }.retire closed

/-- Close every window.
mirrors `driver.PipelineDriver.drain` -/
def drain (a : Aggregator) : List WordCount × Aggregator :=
  let (closed, frontier) := a.frontier.closeAll
  { a with frontier := frontier }.retire closed

end Aggregator

end WindowTally
