import WindowTally.Ordered
import WindowTally.Watermark
import WindowTally.Window.Basic

/-!
# The closing frontier

Decides when windows close. A window closes when the watermark reaches its end
plus a grace period, or when a flush finds the wall clock at or past its end plus
an out-of-order allowance. Every window that ends at or before `closedThrough` is
closed for good; the others that were handed out as open are `pending`, in the
order in which they will close, and are handed out once when they do.
-/
namespace WindowTally

/-- Which of a record's windows are open, and how late the record is.
mirrors `emission.Admission` -/
structure Admission where
  opened : List Window
  lateness : Millis
  deriving DecidableEq, Repr

namespace Admission

/-- No window of the record is open.
mirrors `emission.Admission.is_dropped` -/
def isDropped (a : Admission) : Bool := a.opened.isEmpty

/-- The record is late, and some window of it is open.
mirrors `emission.Admission.is_late_but_open` -/
def isLateButOpen (a : Admission) : Bool := 0 < a.lateness && !a.opened.isEmpty

end Admission

/-- The windows that are waiting to close, and how far closing has come.
mirrors `emission.EmissionPolicy` -/
structure Frontier where
  grace : Millis := 0
  allowance : Millis := 0
  watermark : Watermark := {}
  pending : List Window := []
  closedThrough : Millis := Millis.least
  pending_ordered : pending.Pairwise Window.ClosesBefore := by exact List.Pairwise.nil

namespace Frontier

/-- The frontier at the start. A negative grace or allowance counts as none.
mirrors `emission.EmissionPolicy.new` -/
def make (grace allowance : Millis) : Frontier :=
  { grace := max grace 0, allowance := max allowance 0 }

/-- Whether a window is closed.
mirrors `emission.EmissionPolicy.is_closed` -/
def isClosed (f : Frontier) (w : Window) : Bool := w.stop ≤ f.closedThrough

theorem pairwise_put {ws : List Window} (h : ws.Pairwise Window.ClosesBefore) (w : Window) :
    (Ordered.put Window.ClosesBefore w (fun v => v) ws).Pairwise Window.ClosesBefore := by
  refine Ordered.pairwise_put ?_ ?_ ?_ h
  · exact Window.ClosesBefore.trans
  · exact fun h => h
  · exact fun h => h

/-- Register a window that was handed out as open. -/
def register (f : Frontier) (w : Window) : Frontier :=
  { f with
    pending := Ordered.put Window.ClosesBefore w (fun v => v) f.pending
    pending_ordered := pairwise_put f.pending_ordered w }

/-- Enroll a record in those of its windows that are not closed.
mirrors `emission.EmissionPolicy.admit` -/
def enroll (f : Frontier) (t : Millis) (windows : List Window) : Admission × Frontier :=
  let opened := windows.filter fun w => !f.isClosed w
  (⟨opened, f.watermark.lateness t⟩, opened.foldl register f)

/-- The pending windows that closing through `threshold` hands out: those that close before
the last window that could end there. -/
def closesThrough (threshold : Millis) (w : Window) : Bool :=
  decide (w.ClosesBefore ⟨Millis.greatest, threshold⟩)

/-- Close every window that ends at or before `threshold`.
mirrors `emission.EmissionPolicy.close_through` -/
def closeThrough (f : Frontier) (threshold : Millis) : List Window × Frontier :=
  if threshold ≤ f.closedThrough then ([], f)
  else
    (f.pending.filter (closesThrough threshold),
      { f with
        closedThrough := threshold
        pending := f.pending.filter fun w => !closesThrough threshold w
        pending_ordered := f.pending_ordered.filter _ })

/-- An event at time `t`: if it moves the watermark, windows close through the watermark less
the grace period.
mirrors `emission.EmissionPolicy.on_event_time` -/
def onEvent (f : Frontier) (t : Millis) : List Window × Frontier :=
  match f.watermark.advance? t with
  | some w => { f with watermark := w }.closeThrough (Millis.subClamped w.timestamp f.grace)
  | none => ([], f)

/-- A flush when the wall clock shows `now`.
mirrors `emission.EmissionPolicy.on_flush` -/
def onFlush (f : Frontier) (now : Millis) : List Window × Frontier :=
  f.closeThrough (Millis.subClamped now f.allowance)

/-- The end of the stream closes everything.
mirrors `emission.EmissionPolicy.close_all` -/
def closeAll (f : Frontier) : List Window × Frontier := f.closeThrough Millis.greatest

end Frontier

end WindowTally
