import WindowTally.Window.Basic

/-!
# Hopping windows

A family of windows of one length, one starting at every multiple of an advance.
With `advance = length` the windows tile event time (they *tumble*); with a
smaller advance they overlap, and a time lies in several of them.

`Hopping.windowsAt` lists the windows of the family that contain a time. Before they are
listed, room is made for as many as there can be; `Hopping.assign?` lists none where that
is more than there can be room for.
-/
namespace WindowTally

/-- Why a length and an advance make no family of windows.
mirrors `error.WindowError` -/
inductive HoppingFault where
  | lengthNotPositive (length : Millis)
  | advanceTooLong (advance length : Millis)
  deriving DecidableEq, Repr

namespace HoppingFault

/-- mirrors `error.WindowError.fmt` -/
def message : HoppingFault → String
  | lengthNotPositive length =>
    s!"invalid window length: {length}ms, must be greater than 0"
  | advanceTooLong advance length =>
    s!"invalid advance: {advance}ms, must be less than or equal to window length {length}ms"

end HoppingFault

/-- Windows of one length, one at every multiple of the advance.
mirrors `assigner.HoppingWindowAssigner` -/
structure Hopping where
  length : Millis
  advance : Millis
  advance_pos : 0 < advance
  advance_le : advance ≤ length
  deriving DecidableEq, Repr

namespace Hopping

/-- The family with a length and an advance; an advance of zero or less stands for the length.
mirrors `assigner.HoppingWindowAssigner.new` -/
def make (length advance : Millis) : Except HoppingFault Hopping :=
  if hl : length ≤ 0 then .error (.lengthNotPositive length)
  else if ha : advance ≤ 0 then
    .ok ⟨length, length, Int64.not_le.1 hl, Int64.le_refl length⟩
  else if hal : length < advance then .error (.advanceTooLong advance length)
  else .ok ⟨length, advance, Int64.not_le.1 ha, Int64.not_lt.1 hal⟩

/-- The family whose windows tile event time.
mirrors `assigner.HoppingWindowAssigner.tumbling` -/
def tumbling (length : Millis) : Except HoppingFault Hopping := make length length

/-- Whether the windows tile event time.
mirrors `assigner.HoppingWindowAssigner.is_tumbling` -/
def isTumbling (h : Hopping) : Bool := h.advance == h.length

/-- The most windows one time can lie in.
mirrors `assigner.HoppingWindowAssigner.max_windows_per_event` -/
def maxWindows (h : Hopping) : Nat := ((h.length.toInt - 1) / h.advance.toInt + 1).toNat

/-- The latest multiple of the advance at or before `t`. -/
def lastStart (h : Hopping) (t : Millis) : Int := t.toInt - t.toInt % h.advance.toInt

/-- The starts after `bound` and up to `last`, `last` being one of them, in increasing order. -/
def startsBetween (h : Hopping) (bound last : Int) : List Int :=
  let steps := ((last - bound - 1) / h.advance.toInt + 1).toNat
  (List.range steps).reverse.map fun (k : Nat) => last - (k : Int) * h.advance.toInt

/-- The windows that contain `t`, by start. A start is taken if it lies after `t - length`,
that bound being held inside the representable range, and the window is left out if its
end is not representable. -/
def windowsAt (h : Hopping) (t : Millis) : List Window :=
  (h.startsBetween (Millis.subClamped t h.length).toInt (h.lastStart t)).filterMap
    fun start => Window.ofStart? start h.length.toInt

/-- Whether room can be made for the most windows that one time can lie in. A window takes up
sixteen bytes, and a list `2 ^ 63 - 1` of them at most. -/
def hasRoom (h : Hopping) : Bool := 16 * h.maxWindows ≤ 9223372036854775807

/-- The windows that contain `t`, by start, unless no room can be made for them.
mirrors `assigner.HoppingWindowAssigner.assign_windows` -/
def assign? (h : Hopping) (t : Millis) : Option (List Window) :=
  if h.hasRoom then some (h.windowsAt t) else none

end Hopping

end WindowTally
