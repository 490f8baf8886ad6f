import WindowTally.Ordered
import WindowTally.Time.Civil

/-!
# Time windows

A window is a half-open interval `[start, stop)` of event time. Windows close in
the order of their ends (`Window.ClosesBefore`) and are listed in the order of
their starts (`Window.ListsBefore`).
-/
namespace WindowTally

/-- The event times from `start` up to, but not including, `stop`.
mirrors `types.Window` -/
structure Window where
  start : Millis
  stop : Millis
  deriving DecidableEq, Repr

namespace Window

/-- The name of a window in failure tables and messages.
mirrors `types.Window.id` -/
def id (w : Window) : String := toString w.start.toInt ++ "_" ++ toString w.stop.toInt

/-- How long the window is.
mirrors `types.Window.length` -/
def length (w : Window) : Int := w.stop.toInt - w.start.toInt

/-- Whether a time lies in the window.
mirrors `types.Window.contains` -/
def contains (w : Window) (t : Millis) : Bool := w.start ≤ t && t < w.stop

/-- The order in which windows close: by end, then by start. -/
def ClosesBefore (a b : Window) : Prop :=
  a.stop < b.stop ∨ a.stop = b.stop ∧ a.start < b.start

instance : DecidableRel ClosesBefore := fun a b =>
  inferInstanceAs (Decidable (a.stop < b.stop ∨ a.stop = b.stop ∧ a.start < b.start))

/-- The order in which windows are listed: by start, then by end. -/
def ListsBefore (a b : Window) : Prop :=
  a.start < b.start ∨ a.start = b.start ∧ a.stop < b.stop

instance : DecidableRel ListsBefore := fun a b =>
  inferInstanceAs (Decidable (a.start < b.start ∨ a.start = b.start ∧ a.stop < b.stop))

theorem ClosesBefore.trans {a b c : Window} (hab : a.ClosesBefore b) (hbc : b.ClosesBefore c) :
    a.ClosesBefore c := by
  simp only [ClosesBefore, Int64.lt_iff_toInt_lt, ← Int64.toInt_inj] at *
  omega

theorem ListsBefore.trans {a b c : Window} (hab : a.ListsBefore b) (hbc : b.ListsBefore c) :
    a.ListsBefore c := by
  simp only [ListsBefore, Int64.lt_iff_toInt_lt, ← Int64.toInt_inj] at *
  omega

/-- The windows in listing order, each once. -/
def listing (ws : List Window) : List Window :=
  ws.foldr (fun w => Ordered.put ListsBefore w fun v => v) []

/-- `[start - stop)`, with dates where both ends have one and plain milliseconds otherwise.
mirrors `types.Window.fmt` -/
def text (w : Window) : String :=
  match Moment.ofMillis? w.start, Moment.ofMillis? w.stop with
  | some a, some b => "[" ++ a.textMillis ++ " - " ++ b.textMillis ++ ")"
  | _, _ => "[" ++ toString w.start.toInt ++ " - " ++ toString w.stop.toInt ++ ")"

/-- The window of length `length` that starts at `start`, if both its ends are representable. -/
def ofStart? (start length : Int) : Option Window :=
  match Millis.ofInt? start, Millis.ofInt? (start + length) with
  | some a, some b => some ⟨a, b⟩
  | _, _ => none

end Window

end WindowTally
