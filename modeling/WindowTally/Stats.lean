import WindowTally.Time.Millis

/-!
# Statistics

The running totals of a pipeline. Totals are 64-bit and wrap; the watermark and
the number of open windows are the latest values.
-/
namespace WindowTally

/-- What a pipeline has done so far.
mirrors `stats.PipelineStats` -/
structure Stats where
  /-- Records taken in. -/
  records : UInt64 := 0
  /-- Records whose payload was not text. -/
  malformed : UInt64 := 0
  /-- Words counted into an open window. -/
  counted : UInt64 := 0
  /-- Words dropped because every window they belong to had closed. -/
  lateDropped : UInt64 := 0
  /-- Windows emitted. -/
  windows : UInt64 := 0
  /-- Word counts emitted. -/
  emitted : UInt64 := 0
  /-- Word counts the sink took. -/
  delivered : UInt64 := 0
  /-- Word counts that ran out of retries. -/
  failed : UInt64 := 0
  /-- Retries of all deliveries. -/
  retries : UInt64 := 0
  /-- The watermark. -/
  watermark : Millis := Millis.least
  /-- Windows that hold counts. -/
  openWindows : UInt64 := 0
  deriving DecidableEq, Repr

/-- Word counts emitted that are neither delivered nor failed; never below zero.
mirrors `stats.PipelineStats.pending_deliveries` -/
def Stats.pending (s : Stats) : UInt64 :=
  UInt64.ofNat (s.emitted.toNat - s.delivered.toNat - s.failed.toNat)

end WindowTally
