import WindowTally.Proofs.Closing

/-!
# Calls of a frontier

A frontier is called from outside: records are enrolled, and windows close for events,
for flushes and at the end of the stream, in any order. Two laws say what a whole list of
calls does.

* A window is closed just when some call has reached its end with the grace period or the
  allowance added, over the unbounded integers (`closed_iff_reached`). So nothing reopens,
  the order of the calls does not matter, and no clamped threshold closes a window early
  or late. This holds for whatever windows are enrolled.
* Every window that was handed out as open is either pending or has been handed out once
  more when it closed, and only once; the windows that close come in strict order
  (`handed_out_once`).

What one call does to pending windows is `mem_pending_call`; it is used both ways round.
-/
namespace WindowTally

/-- What a frontier is asked to do. -/
inductive FrontierCall where
  /-- Enroll a record of time `t` in those of its windows that are open. -/
  | enroll (t : Millis) (windows : List Window)
  | event (t : Millis)
  | flush (now : Millis)
  | closeAll
  deriving DecidableEq, Repr

namespace FrontierCall

/-- The windows that the call brings. -/
def windows : FrontierCall → List Window
  | .enroll _ windows => windows
  | _ => []

/-- Whether the call reaches the end of a window, on times that are not bounded. A negative grace
period or allowance counts as none. -/
def Reaches (grace allowance : Millis) (w : Window) : FrontierCall → Prop
  | .enroll _ _ => False
  | .event t => w.stop.toInt + max grace.toInt 0 ≤ t.toInt
  | .flush now => w.stop.toInt + max allowance.toInt 0 ≤ now.toInt
  | .closeAll => True

instance (grace allowance : Millis) (w : Window) : DecidablePred (Reaches grace allowance w)
  | .enroll _ _ => inferInstanceAs (Decidable False)
  | .event t => inferInstanceAs (Decidable (w.stop.toInt + max grace.toInt 0 ≤ t.toInt))
  | .flush now => inferInstanceAs (Decidable (w.stop.toInt + max allowance.toInt 0 ≤ now.toInt))
  | .closeAll => inferInstanceAs (Decidable True)

end FrontierCall

namespace Frontier

/-- The frontier after a call. -/
def call (f : Frontier) : FrontierCall → Frontier
  | .enroll t windows => (f.enroll t windows).2
  | .event t => (f.onEvent t).2
  | .flush now => (f.onFlush now).2
  | .closeAll => f.closeAll.2

/-- The windows that a call answers are open. -/
def opens (f : Frontier) : FrontierCall → List Window
  | .enroll t windows => (f.enroll t windows).1.opened
  | _ => []

/-- The windows that a call answers have closed. -/
def closes (f : Frontier) : FrontierCall → List Window
  | .enroll _ _ => []
  | .event t => (f.onEvent t).1
  | .flush now => (f.onFlush now).1
  | .closeAll => f.closeAll.1

/-- The frontier after several calls. -/
def after (f : Frontier) (calls : List FrontierCall) : Frontier := calls.foldl call f

/-- The windows that several calls answer are open, in order. -/
def opened (f : Frontier) : List FrontierCall → List Window
  | [] => []
  | c :: calls => f.opens c ++ (f.call c).opened calls

/-- The windows that several calls answer have closed, in order. -/
def handedOut (f : Frontier) : List FrontierCall → List Window
  | [] => []
  | c :: calls => f.closes c ++ (f.call c).handedOut calls

theorem after_append (f : Frontier) (calls more : List FrontierCall) :
    f.after (calls ++ more) = (f.after calls).after more :=
  List.foldl_append

/-! ## Closing never goes back -/

theorem closedThrough_le_call (f : Frontier) (c : FrontierCall) :
    f.closedThrough ≤ (f.call c).closedThrough := by
  cases c with
  | enroll t windows => exact Int64.le_of_eq closedThrough_enroll.symm
  | event t => exact closedThrough_le_onEvent t
  | flush now => exact (le_closeThrough _).1
  | closeAll => exact (le_closeThrough _).1

theorem isClosed_after_mono (f : Frontier) (calls : List FrontierCall) {w : Window}
    (hw : f.isClosed w = true) : (f.after calls).isClosed w = true := by
  induction calls generalizing f with
  | nil => exact hw
  | cons c calls ih =>
    refine ih (f.call c) (isClosed_iff.2 ?_)
    exact Int64.le_trans (isClosed_iff.1 hw) (closedThrough_le_call f c)

/-- Once everything has been closed, no window is open. -/
theorem isClosed_of_closeAll (f : Frontier) {calls : List FrontierCall} (h : .closeAll ∈ calls)
    (w : Window) : (f.after calls).isClosed w = true := by
  obtain ⟨before, more, rfl⟩ := List.append_of_mem h
  rw [after_append]
  exact isClosed_after_mono _ more (isClosed_closeAll w)

/-! ## When a window is closed -/

section
variable {f : Frontier}
  (caughtUp : Millis.subClamped f.watermark.timestamp f.grace ≤ f.closedThrough)
  (c : FrontierCall)

theorem grace_call : (f.call c).grace = f.grace := by
  cases c with
  | enroll t windows => exact grace_enroll
  | event t => exact grace_onEvent t
  | flush now => exact grace_closeThrough _
  | closeAll => exact grace_closeThrough _

theorem allowance_call : (f.call c).allowance = f.allowance := by
  cases c with
  | enroll t windows => exact allowance_enroll
  | event t => exact allowance_onEvent t
  | flush now => exact allowance_closeThrough _
  | closeAll => exact allowance_closeThrough _

include caughtUp

theorem caughtUp_call :
    Millis.subClamped (f.call c).watermark.timestamp (f.call c).grace ≤
      (f.call c).closedThrough := by
  cases c with
  | enroll t windows =>
    simp only [call, watermark_enroll, grace_enroll, closedThrough_enroll]
    exact caughtUp
  | event t => exact caughtUp_onEvent caughtUp t
  | flush now => exact caughtUp_closeThrough caughtUp _
  | closeAll => exact caughtUp_closeThrough caughtUp _

/-- A call closes the windows whose ends it reaches, and reopens none. -/
theorem isClosed_call {grace allowance : Millis} (hgrace : f.grace.toInt = max grace.toInt 0)
    (hallowance : f.allowance.toInt = max allowance.toInt 0) {w : Window} (hw : w.start < w.stop) :
    (f.call c).isClosed w = true ↔ f.isClosed w = true ∨ c.Reaches grace allowance w := by
  cases c with
  | enroll t windows =>
    simp only [call, isClosed_enroll, FrontierCall.Reaches, or_false]
  | event t =>
    rw [FrontierCall.Reaches, ← hgrace]
    exact isClosed_onEvent caughtUp t hw
  | flush now =>
    rw [FrontierCall.Reaches, ← hallowance]
    exact isClosed_onFlush now hw
  | closeAll => exact ⟨fun _ => .inr trivial, fun _ => isClosed_closeAll w⟩

theorem isClosed_after (calls : List FrontierCall) {grace allowance : Millis}
    (hgrace : f.grace.toInt = max grace.toInt 0)
    (hallowance : f.allowance.toInt = max allowance.toInt 0) {w : Window} (hw : w.start < w.stop) :
    (f.after calls).isClosed w = true ↔
      f.isClosed w = true ∨ ∃ c ∈ calls, c.Reaches grace allowance w := by
  induction calls generalizing f with
  | nil => simp [after]
  | cons c calls ih =>
    have hrest := ih (caughtUp_call caughtUp c) (by rw [grace_call]; exact hgrace)
      (by rw [allowance_call]; exact hallowance)
    rw [isClosed_call caughtUp c hgrace hallowance hw] at hrest
    refine hrest.trans ?_
    simp only [List.mem_cons, exists_eq_or_imp, or_assoc]

end

theorem grace_make (grace allowance : Millis) :
    (make grace allowance).grace.toInt = max grace.toInt 0 := Millis.toInt_max grace 0

theorem allowance_make (grace allowance : Millis) :
    (make grace allowance).allowance.toInt = max allowance.toInt 0 := Millis.toInt_max allowance 0

/-- At the start no window is closed that has a length. -/
theorem not_isClosed_make (grace allowance : Millis) {w : Window} (hw : w.start < w.stop) :
    (make grace allowance).isClosed w = false := by
  rw [← Bool.not_eq_true, isClosed_iff]
  exact Int64.not_le.2 (Window.least_lt_stop hw)

/-- After any calls a window is closed just when one of them has reached its end with what is
granted. So it stays closed whatever is called, and other orders of the same calls close the same
windows. -/
theorem closed_iff_reached (grace allowance : Millis) (calls : List FrontierCall) {w : Window}
    (hw : w.start < w.stop) :
    (((make grace allowance).after calls).isClosed w = true ↔
      ∃ c ∈ calls, c.Reaches grace allowance w) ∧
    (∀ more, ((make grace allowance).after calls).isClosed w = true →
      ((make grace allowance).after (calls ++ more)).isClosed w = true) ∧
    (∀ calls', calls'.Perm calls →
      ((make grace allowance).after calls').isClosed w =
        ((make grace allowance).after calls).isClosed w) := by
  have hiff (calls : List FrontierCall) :
      ((make grace allowance).after calls).isClosed w = true ↔
        ∃ c ∈ calls, c.Reaches grace allowance w := by
    refine (isClosed_after (sound_make grace allowance).caughtUp calls
      (grace_make grace allowance) (allowance_make grace allowance) hw).trans ?_
    rw [not_isClosed_make grace allowance hw]
    simp
  refine ⟨hiff calls, fun more hclosed => ?_, fun calls' hperm => ?_⟩
  · obtain ⟨c, hc, hreaches⟩ := (hiff calls).1 hclosed
    exact (hiff _).2 ⟨c, List.mem_append_left more hc, hreaches⟩
  · rw [Bool.eq_iff_iff, hiff, hiff]
    simp only [hperm.mem_iff]

/-- The theorem for a window that ends one step before the greatest time: an event at the greatest
time does not close it with a grace period of two, and a flush with an allowance below zero does. -/
theorem closed_iff_reached_near_greatest :
    (⟨0, Millis.greatest - 1⟩ : Window).start < (⟨0, Millis.greatest - 1⟩ : Window).stop ∧
    ((make 2 (-5)).after [.event Millis.greatest]).isClosed ⟨0, Millis.greatest - 1⟩ = false ∧
    ((make 2 (-5)).after [.event Millis.greatest, .flush (Millis.greatest - 1)]).isClosed
      ⟨0, Millis.greatest - 1⟩ = true := by
  have hw : (⟨0, Millis.greatest - 1⟩ : Window).start < (⟨0, Millis.greatest - 1⟩ : Window).stop := by
    decide
  refine ⟨hw, ?_, ?_⟩
  · rw [← Bool.not_eq_true, (closed_iff_reached 2 (-5) _ hw).1]
    decide
  · exact (closed_iff_reached 2 (-5) _ hw).1.2 (by decide)

/-! ## What a call does to the pending windows -/

section
variable {f : Frontier} (h : f.Sound) (c : FrontierCall)
include h

theorem sound_call (hc : ∀ w ∈ c.windows, w.start < w.stop) : (f.call c).Sound := by
  cases c with
  | enroll t windows => exact sound_enroll h hc
  | event t => exact sound_onEvent h t
  | flush now => exact sound_onFlush h now
  | closeAll => exact sound_closeAll h

/-- A call that enrolls nothing closes windows. -/
theorem closing_call (hc : ∀ t windows, c ≠ .enroll t windows) :
    Closing f (f.closes c) (f.call c) := by
  cases c with
  | enroll t windows => exact absurd rfl (hc t windows)
  | event t => exact closing_onEvent h t
  | flush now => exact closing_onFlush h now
  | closeAll => exact closing_closeAll h

/-- A call adds the windows that it opens and takes away those that it closes. -/
theorem mem_pending_call (w : Window) :
    w ∈ (f.call c).pending ∨ w ∈ f.closes c ↔ w ∈ f.pending ∨ w ∈ f.opens c := by
  have hcloses (hc : ∀ t windows, c ≠ .enroll t windows) :
      w ∈ (f.call c).pending ∨ w ∈ f.closes c ↔ w ∈ f.pending := by
    have hclosing := closing_call h c hc
    rw [hclosing.mem_left, hclosing.mem_closed]
    cases (f.call c).isClosed w <;> simp
  cases c with
  | enroll t windows =>
    simp only [call, closes, opens, List.not_mem_nil, or_false]
    exact mem_pending_enroll
  | _ => simpa [opens] using hcloses (by simp)

theorem pairwise_closes : (f.closes c).Pairwise Window.ClosesBefore := by
  cases c with
  | enroll t windows => exact List.Pairwise.nil
  | _ => exact (closing_call h _ (by simp)).pairwise

/-- What a call closes was open before it and is closed after it. -/
theorem isClosed_of_mem_closes {w : Window} (hw : w ∈ f.closes c) :
    f.isClosed w = false ∧ (f.call c).isClosed w = true := by
  have hcloses (hc : ∀ t windows, c ≠ .enroll t windows) :
      f.isClosed w = false ∧ (f.call c).isClosed w = true := by
    obtain ⟨hpending, hclosed⟩ := (closing_call h c hc).mem_closed.1 hw
    exact ⟨h.not_isClosed hpending, hclosed⟩
  cases c with
  | enroll t windows => exact absurd hw List.not_mem_nil
  | _ => exact hcloses (by simp)

end

/-! ## What several calls hand out -/

section
variable {f : Frontier} (h : f.Sound) (calls : List FrontierCall)
  (hcalls : ∀ c ∈ calls, ∀ w ∈ c.windows, w.start < w.stop)
include h hcalls

theorem sound_after : (f.after calls).Sound := by
  induction calls generalizing f with
  | nil => exact h
  | cons c calls ih =>
    obtain ⟨hc, hrest⟩ := List.forall_mem_cons.1 hcalls
    exact ih (sound_call h c hc) hrest

/-- What is opened is pending until it is handed out. -/
theorem mem_pending_after (w : Window) : w ∈ (f.after calls).pending ∨ w ∈ f.handedOut calls ↔
    w ∈ f.pending ∨ w ∈ f.opened calls := by
  induction calls generalizing f with
  | nil => simp [after, handedOut, opened]
  | cons c calls ih =>
    obtain ⟨hc, hrest⟩ := List.forall_mem_cons.1 hcalls
    have hfirst := mem_pending_call h c w
    have hlater := ih (sound_call h c hc) hrest
    simp only [handedOut, opened, List.mem_append]
    rw [or_left_comm, ← or_assoc (a := w ∈ f.pending), ← hfirst, or_right_comm, ← hlater,
      or_comm (a := w ∈ f.closes c)]
    exact Iff.rfl

/-- What is handed out was open at the start and is closed at the end. -/
theorem isClosed_of_mem_handedOut {w : Window} (hw : w ∈ f.handedOut calls) :
    f.isClosed w = false ∧ (f.after calls).isClosed w = true := by
  induction calls generalizing f with
  | nil => exact absurd hw List.not_mem_nil
  | cons c calls ih =>
    obtain ⟨hc, hrest⟩ := List.forall_mem_cons.1 hcalls
    have hsound := sound_call h c hc
    rcases List.mem_append.1 hw with hw | hw
    · obtain ⟨hopen, hclosed⟩ := isClosed_of_mem_closes h c hw
      exact ⟨hopen, isClosed_after_mono _ calls hclosed⟩
    · obtain ⟨hopen, hclosed⟩ := ih hsound hrest hw
      refine ⟨?_, hclosed⟩
      rw [← Bool.not_eq_true] at hopen ⊢
      exact fun hbefore => hopen (isClosed_after_mono f [c] hbefore)

/-- Later calls hand out windows that end later. -/
theorem pairwise_handedOut : (f.handedOut calls).Pairwise Window.ClosesBefore := by
  induction calls generalizing f with
  | nil => exact List.Pairwise.nil
  | cons c calls ih =>
    obtain ⟨hc, hrest⟩ := List.forall_mem_cons.1 hcalls
    have hsound := sound_call h c hc
    refine List.pairwise_append.2 ⟨pairwise_closes h c, ih hsound hrest, fun v hv w hw => ?_⟩
    have hclosed := isClosed_iff.1 (isClosed_of_mem_closes h c hv).2
    have hopen := (isClosed_of_mem_handedOut hsound calls hrest hw).1
    rw [← Bool.not_eq_true, isClosed_iff] at hopen
    exact .inl (Int64.lt_of_le_of_lt hclosed (Int64.not_le.1 hopen))

end

/-- The windows that have been opened are those that are pending and those that have been handed out
as closed, and none is both. The pending ones are those that end after what is closed. What is handed
out comes in the order of closing, so no window comes twice. Once everything has been closed nothing
is pending, and whatever record is enrolled then is dropped. -/
theorem handed_out_once (grace allowance : Millis) (calls : List FrontierCall)
    (hcalls : ∀ c ∈ calls, ∀ w ∈ c.windows, w.start < w.stop) :
    let f := (make grace allowance).after calls
    let opened := (make grace allowance).opened calls
    let handedOut := (make grace allowance).handedOut calls
    (∀ w, w ∈ opened ↔ w ∈ f.pending ∨ w ∈ handedOut) ∧
    (∀ w ∈ f.pending, w ∉ handedOut) ∧
    (∀ w, w ∈ f.pending ↔ w ∈ opened ∧ f.closedThrough < w.stop) ∧
    handedOut.Pairwise Window.ClosesBefore ∧ handedOut.Nodup ∧
    (.closeAll ∈ calls → f.pending = [] ∧ ∀ t windows, (f.enroll t windows).1.isDropped = true) := by
  intro f opened handedOut
  have hstart := sound_make grace allowance
  have hsound : f.Sound := sound_after hstart calls hcalls
  have hordered := pairwise_handedOut hstart calls hcalls
  have hopened (w : Window) : w ∈ opened ↔ w ∈ f.pending ∨ w ∈ handedOut := by
    have hnone : w ∉ (make grace allowance).pending := List.not_mem_nil
    have hmem := mem_pending_after hstart calls hcalls w
    simp only [hnone, false_or] at hmem
    exact hmem.symm
  have hclosed (w : Window) (hw : w ∈ handedOut) : ¬ f.closedThrough < w.stop := by
    have hend := (isClosed_of_mem_handedOut hstart calls hcalls hw).2
    exact Int64.not_lt.2 (isClosed_iff.1 hend)
  refine ⟨hopened, fun w hw hout => hclosed w hout (hsound.waiting w hw), fun w => ?_, hordered, ?_,
    fun hall => ⟨?_, fun t windows => ?_⟩⟩
  · constructor
    · intro hw
      exact ⟨(hopened w).2 (.inl hw), hsound.waiting w hw⟩
    · rintro ⟨hw, hwaiting⟩
      exact ((hopened w).1 hw).resolve_right fun hout => hclosed w hout hwaiting
  · refine hordered.imp ?_
    rintro v w hvw rfl
    exact Window.ClosesBefore.irrefl hvw
  · refine List.eq_nil_iff_forall_not_mem.2 fun w hw => ?_
    have hopen := hsound.not_isClosed hw
    rw [isClosed_of_closeAll _ hall] at hopen
    cases hopen
  · have hnone : ∀ w ∈ windows, ¬ (!f.isClosed w) = true := by
      intro w _
      rw [isClosed_of_closeAll _ hall]
      decide
    rw [Admission.isDropped, List.isEmpty_iff]
    exact List.filter_eq_nil_iff.2 hnone

/-- The theorem for windows of different lengths, one of them enrolled again after it has closed. -/
theorem handed_out_once_of_mixed_lengths :
    (∀ c ∈ [FrontierCall.enroll 0 [⟨0, 10⟩, ⟨0, 5⟩], .event 5, .enroll 3 [⟨0, 5⟩, ⟨2, 10⟩], .flush 10],
      ∀ w ∈ c.windows, w.start < w.stop) ∧
    (make 0 0).handedOut [.enroll 0 [⟨0, 10⟩, ⟨0, 5⟩], .event 5, .enroll 3 [⟨0, 5⟩, ⟨2, 10⟩], .flush 10] =
      [⟨0, 5⟩, ⟨0, 10⟩, ⟨2, 10⟩] ∧
    ((make 0 0).handedOut
      [.enroll 0 [⟨0, 10⟩, ⟨0, 5⟩], .event 5, .enroll 3 [⟨0, 5⟩, ⟨2, 10⟩], .flush 10]).Nodup := by
  have hcalls : ∀ c ∈ [FrontierCall.enroll 0 [⟨0, 10⟩, ⟨0, 5⟩], .event 5,
      .enroll 3 [⟨0, 5⟩, ⟨2, 10⟩], .flush 10], ∀ w ∈ c.windows, w.start < w.stop := by decide
  exact ⟨hcalls, by decide, (handed_out_once 0 0 _ hcalls).2.2.2.2.1⟩

end Frontier

end WindowTally
