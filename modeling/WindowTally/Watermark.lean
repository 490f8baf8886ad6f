import WindowTally.Time.Civil

/-!
# The watermark and lateness

The watermark is the largest event time seen. It never moves back
(`Watermark.advance`), and how far a record lies behind it is the record's
lateness (`Watermark.lateness`). `LateTokens` keeps account of late tokens.
-/
namespace WindowTally

/-- The largest event time seen; the least time stands for none.
mirrors `watermark.Watermark` and `watermark.WatermarkTracker` -/
structure Watermark where
  timestamp : Millis := Millis.least
  deriving DecidableEq, Repr

namespace Watermark

/-- Whether nothing has been seen.
mirrors `watermark.Watermark.is_min` -/
def isLeast (w : Watermark) : Bool := w.timestamp == Millis.least

/-- The watermark after an event, if the event moves it.
mirrors `watermark.WatermarkTracker.on_event` -/
def advance? (w : Watermark) (t : Millis) : Option Watermark :=
  if w.timestamp < t then some ⟨t⟩ else none

theorem advance?_eq_some_iff {w m : Watermark} {t : Millis} :
    w.advance? t = some m ↔ w.timestamp < t ∧ m = ⟨t⟩ := by
  unfold advance?
  split
  · next hlt => exact ⟨fun h => ⟨hlt, (Option.some.inj h).symm⟩, fun h => h.2 ▸ rfl⟩
  · next hle => exact ⟨fun h => (nomatch h), fun h => absurd h.1 hle⟩

theorem advance?_eq_none_iff {w : Watermark} {t : Millis} :
    w.advance? t = none ↔ t ≤ w.timestamp := by
  unfold advance?
  split
  · next hlt => exact ⟨fun h => (nomatch h), fun h => absurd hlt (Int64.not_lt.2 h)⟩
  · next hle => exact ⟨fun _ => Int64.not_lt.1 hle, fun _ => rfl⟩

/-- The watermark after an event. -/
def advance (w : Watermark) (t : Millis) : Watermark := (w.advance? t).getD w

/-- How far behind the watermark a time lies, up to the largest duration.
mirrors `watermark.WatermarkTracker.lateness` -/
def lateness (w : Watermark) (t : Millis) : Millis :=
  if w.isLeast || w.timestamp ≤ t then 0 else Millis.subClamped w.timestamp t

/-- The calendar form of the watermark.
mirrors `watermark.Watermark.to_datetime` -/
def moment? (w : Watermark) : Option Moment := Moment.ofMillis? w.timestamp

/-- `Watermark(…)` around the date and time, around plain milliseconds where there is no date,
or around `min`.
mirrors `watermark.Watermark.fmt` -/
def text (w : Watermark) : String :=
  if w.isLeast then "Watermark(min)"
  else match w.moment? with
    | some m => "Watermark(" ++ m.textUtc ++ ")"
    | none => "Watermark(" ++ toString w.timestamp.toInt ++ ")"

end Watermark

/-- Account of the tokens that arrived behind the watermark: how many were dropped, how many were
still counted, and the largest lateness of either.
mirrors `watermark.LateEventStats` -/
structure LateTokens where
  dropped : UInt64 := 0
  accepted : UInt64 := 0
  largest : Millis := 0
  deriving DecidableEq, Repr

namespace LateTokens

/-- mirrors `watermark.LateEventStats.record_dropped` -/
def drop (l : LateTokens) (lateness : Millis) : LateTokens :=
  { l with dropped := l.dropped + 1, largest := max l.largest lateness }

/-- mirrors `watermark.LateEventStats.record_accepted` -/
def accept (l : LateTokens) (lateness : Millis) : LateTokens :=
  { l with accepted := l.accepted + 1, largest := max l.largest lateness }

end LateTokens

end WindowTally
