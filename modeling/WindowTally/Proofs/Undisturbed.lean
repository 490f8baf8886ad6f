import WindowTally.Proofs.Progress
import WindowTally.Proofs.Reading

/-!
# Undisturbed runs over a list of records

A run is undisturbed if no flush comes and nobody asks it to stop. What its reader will
still do is then known in advance: take in the records that are left and drain, or meet
the fault of its source (`dueOperations`, `dueFaults`). Each turn does the first part of
that and leaves the rest (`course_of_step`), unless the reader gives up for a closed
queue; so a run that gives nothing up carries out the operations that were due when it
began (`course_of_steps`).
-/
namespace WindowTally

/-- Whether a turn is a flush or part of a request to stop. -/
def Turn.disturbs : Turn → Bool
  | .flush _ | .clearRunning | .notify => true
  | _ => false

/-- No flush comes and nobody asks to stop. -/
def Undisturbed (ts : List Turn) : Prop := ∀ t ∈ ts, t.disturbs = false

instance (ts : List Turn) : Decidable (Undisturbed ts) :=
  inferInstanceAs (Decidable (∀ t ∈ ts, t.disturbs = false))

namespace ListSource

variable {s s' : ListSource}

theorem poll_eq_record {r : Record} (h : s.poll = (.record r, s')) :
    s.records = r :: s'.records ∧ s'.fault = s.fault := by
  unfold poll at h
  split at h
  · next hrecords =>
    cases h
    exact ⟨hrecords, rfl⟩
  · split at h <;> cases h

theorem poll_eq_ended (h : s.poll = (.ended, s')) : s.records = [] ∧ s.fault = none := by
  unfold poll at h
  split at h
  · cases h
  · next hrecords =>
    split at h
    · cases h
    · next hfault => exact ⟨hrecords, hfault⟩

theorem poll_eq_failed {fault : Fault} (h : s.poll = (.failed fault, s')) :
    s.records = [] ∧ ∃ cause, fault = .source cause ∧ s.fault = some cause := by
  unfold poll at h
  split at h
  · cases h
  · next hrecords =>
    split at h
    · next cause hfault =>
      cases h
      exact ⟨hrecords, cause, rfl, hfault⟩
    · cases h

/-- A list never has to be waited for. -/
theorem poll_ne_waiting (s : ListSource) : s.poll.1 ≠ .waiting := by
  unfold poll
  split
  · simp
  · split <;> simp

end ListSource

namespace Pipeline

open Event (counts)

variable {σ : Type} {p q : Pipeline ListSource σ}

/-- Whether the reader has yet to ask its source again. -/
def reading (p : Pipeline ListSource σ) : Bool :=
  match p.reader with
  | .idle | .checking | .waiting | .polling | .forwarding _ => true
  | _ => false

/-- The operations at the end of the source. -/
def closingOperations (p : Pipeline ListSource σ) : List Operation :=
  if p.settings.flushOnClose then [.drain] else []

/-- The operations that the reader will still carry out, if it is not disturbed. -/
def dueOperations (p : Pipeline ListSource σ) : List Operation :=
  if p.reading then
    p.source.records.map .record ++ if p.source.fault = none then p.closingOperations else []
  else
    match p.reader with
    | .closing => p.closingOperations
    | _ => []

/-- The faults that the reader will still meet. -/
def dueFaults (p : Pipeline ListSource σ) : List Fault :=
  if p.reading then p.source.fault.toList.map .source else []

/-- Nobody has asked to stop. -/
structure Unasked (p : Pipeline ListSource σ) : Prop where
  notice : p.notice = false
  running : p.reader ≠ .idle → p.reading = true → p.running = true

/-- From `p` to `q` the reader does some of what is due, and the rest stays due. -/
structure Course (p : Pipeline ListSource σ) (ops : List Operation) (faults : List Fault)
    (q : Pipeline ListSource σ) : Prop where
  operations : ops ++ q.dueOperations = p.dueOperations
  faults : faults ++ q.dueFaults = p.dueFaults

theorem Course.stay (hreading : q.reading = p.reading) (hsource : q.source = p.source)
    (hsettings : q.settings = p.settings)
    (hreader : p.reading = true ∨ q.reader = p.reader) : Course p [] [] q := by
  refine ⟨?_, ?_⟩
  · rw [dueOperations, dueOperations, closingOperations, closingOperations, hreading, hsource,
      hsettings, List.nil_append]
    rcases hreader with hreader | hreader
    · rw [if_pos hreader, if_pos hreader]
    · rw [hreader]
  · rw [dueFaults, dueFaults, hreading, hsource, List.nil_append]

theorem due_of_outcome (h : p.outcome? ≠ none) : p.dueOperations = [] ∧ p.dueFaults = [] := by
  unfold outcome? at h
  split at h
  · next hreader => simp [dueOperations, dueFaults, reading, hreader]
  · exact absurd rfl h

section
variable [Sink σ] {t : Turn} {ts : List Turn}

theorem unasked_of_step (hp : p.Unasked) (ht : t.disturbs = false)
    (h : p.step t = some q) : q.Unasked := by
  have hgoes (hnotice : q.notice = p.notice) (hrunning : q.running = p.running)
      (hbegun : p.reader ≠ .idle) (hreading : p.reading = true) : q.Unasked :=
    ⟨hnotice.trans hp.notice, fun _ _ => hrunning.trans (hp.running hbegun hreading)⟩
  have hdone (hnotice : q.notice = p.notice) (hreading : q.reading = false) : q.Unasked :=
    ⟨hnotice.trans hp.notice, fun _ h => absurd h (by simp [hreading])⟩
  cases reads_of_step h with
  | aside elsewhere same running notice =>
    have hrunning : q.running = p.running := by
      rcases running with hrunning | ⟨rfl, -⟩
      · exact hrunning
      · cases ht
    have hnotice : q.notice = p.notice := by
      rcases notice with hnotice | rfl
      · exact hnotice
      · cases ht
    have hreading : q.reading = p.reading := by rw [reading, same.reader]; rfl
    refine ⟨hnotice.trans hp.notice, fun hbegun h => ?_⟩
    rw [same.reader] at hbegun
    exact hrunning.trans (hp.running hbegun (hreading ▸ h))
  | begins phase => exact ⟨hp.notice, fun _ _ => rfl⟩
  | checks phase | proceeds phase unasked | misses phase polled | receives phase polled
  | goesOn phase => exact hgoes rfl rfl (by simp [phase]) (by rw [reading, phase])
  | heeds phase asked => exact hdone hp.notice.symm rfl
  | flushes phase due => cases ht
  | forwards isOpen room left =>
    rcases left with ⟨phase, rfl⟩ | ⟨phase, rfl⟩
    · exact hgoes rfl rfl (by simp [phase]) (by rw [reading, phase])
    · exact hdone rfl rfl
  | _ => exact hdone rfl rfl

theorem course_of_step (hp : p.Unasked) (ht : t.disturbs = false)
    (h : p.step t = some q) (hkept : counts .lost (p.events (.turn t)) = []) :
    Course p (p.operation? t).toList (p.sourceFault? t).toList q := by
  have hsettings : q.settings = p.settings := settings_of_advance (advance_of_move (m := .turn t) h)
  have hclosing : q.closingOperations = p.closingOperations := by
    rw [closingOperations, closingOperations, hsettings]
  -- Where the reader does nothing of what is due, all of it stays due.
  have hstay (hop : p.operation? t = none) (hfault : p.sourceFault? t = none)
      (hcourse : Course p [] [] q) :
      Course p (p.operation? t).toList (p.sourceFault? t).toList q := by
    rw [hop, hfault]
    exact hcourse
  have hlooks (hreading : p.reading = true) (hreading' : q.reading = true)
      (hsource : q.source = p.source) (hop : p.operation? t = none)
      (hfault : p.sourceFault? t = none) :
      Course p (p.operation? t).toList (p.sourceFault? t).toList q :=
    hstay hop hfault (.stay (hreading'.trans hreading.symm) hsource hsettings (.inl hreading))
  cases reads_of_step h with
  | aside elsewhere same running notice =>
    have hreading : q.reading = p.reading := by rw [reading, same.reader]; rfl
    refine hstay ?_ ?_ (.stay hreading same.source hsettings (.inr same.reader))
    · cases t with
      | read => exact absurd rfl elsewhere.1
      | flush now => cases ht
      | _ => rfl
    · cases t with
      | read => exact absurd rfl elsewhere.1
      | _ => rfl
  | begins phase | proceeds phase unasked | goesOn phase =>
    exact hlooks (by rw [reading, phase]) rfl rfl (by simp [operation?, phase])
      (by simp [sourceFault?, phase])
  | checks phase =>
    have hreading : p.reading = true := by rw [reading, phase]
    have hrunning := hp.running (by simp [phase]) hreading
    refine hlooks hreading ?_ rfl (by simp [operation?, phase]) (by simp [sourceFault?, phase])
    simp only [reading, hrunning, if_true]
  | heeds phase asked =>
    rw [hp.notice] at asked
    cases asked
  | misses phase polled => exact absurd (congrArg Prod.fst polled) p.source.poll_ne_waiting
  | receives phase polled =>
    obtain ⟨hrecords, hfault⟩ := ListSource.poll_eq_record polled
    refine ⟨?_, ?_⟩
    · simp [dueOperations, reading, operation?, phase, polled, hrecords, hfault, hclosing]
    · simp [dueFaults, reading, sourceFault?, phase, polled, hfault]
  | ends phase polled =>
    obtain ⟨hrecords, hfault⟩ := ListSource.poll_eq_ended polled
    refine ⟨?_, ?_⟩
    · simp [dueOperations, reading, operation?, phase, polled, hrecords, hfault, hclosing]
    · simp [dueFaults, reading, sourceFault?, phase, polled, hfault]
  | breaks phase polled =>
    obtain ⟨hrecords, cause, rfl, hfault⟩ := ListSource.poll_eq_failed polled
    refine ⟨?_, ?_⟩
    · simp [dueOperations, reading, operation?, phase, polled, hrecords, hfault]
    · simp [dueFaults, reading, sourceFault?, phase, polled, hfault]
  | flushes phase due => cases ht
  | forwards isOpen room left =>
    rcases left with ⟨phase, rfl⟩ | ⟨phase, rfl⟩
    · exact hlooks (by rw [reading, phase]) rfl rfl (by simp [operation?, phase])
        (by simp [sourceFault?, phase])
    · refine hstay (by simp [operation?, phase]) (by simp [sourceFault?, phase]) ⟨?_, ?_⟩
      · simp [dueOperations, reading, phase]
      · simp [dueFaults, reading, phase]
  | givesUp isClosed inHand =>
    rw [lost_of_turn, if_pos ⟨rfl, isClosed⟩] at hkept
    rcases inHand with phase | phase
    · simp [remaining, phase, ReaderPhase.remaining] at hkept
    · simp [remaining, phase, ReaderPhase.remaining] at hkept
  | drains phase asked =>
    refine ⟨?_, ?_⟩
    · simp [dueOperations, reading, operation?, phase, asked, closingOperations]
    · simp [dueFaults, reading, sourceFault?, phase]
  | finishes phase =>
    rcases phase with ⟨phase, unasked⟩ | phase
    · refine hstay (by simp [operation?, phase, unasked]) (by simp [sourceFault?, phase]) ⟨?_, ?_⟩
      · simp [dueOperations, reading, phase, unasked, closingOperations]
      · simp [dueFaults, reading, phase]
    · refine hstay (by simp [operation?, phase]) (by simp [sourceFault?, phase]) ⟨?_, ?_⟩
      · simp [dueOperations, reading, phase]
      · simp [dueFaults, reading, phase]
  | returns phase done =>
    refine hstay (by simp [operation?, phase]) (by simp [sourceFault?, phase]) ⟨?_, ?_⟩
    · simp [dueOperations, reading, phase]
    · simp [dueFaults, reading, phase]

theorem course_of_steps (hp : p.Unasked) (hts : Undisturbed ts) (h : p.steps ts = some q)
    (hkept : counts .lost (p.history (ts.map .turn)) = []) :
    Course p (p.operations ts) (p.sourceFaults ts) q := by
  induction ts generalizing p with
  | nil =>
    cases h
    exact .stay rfl rfl rfl (.inr rfl)
  | cons t ts ih =>
    obtain ⟨r, hr, hq, hhistory⟩ := steps_cons h
    rw [hhistory, Event.counts_append, List.append_eq_nil_iff] at hkept
    obtain ⟨ht, hrest⟩ := List.forall_mem_cons.1 hts
    have hfirst := course_of_step hp ht hr hkept.1
    have hcourse := ih (unasked_of_step hp ht hr) hrest hq hkept.2
    refine ⟨?_, ?_⟩
    · rw [operations, log_cons _ hr, List.append_assoc]
      exact (congrArg _ hcourse.operations).trans hfirst.operations
    · rw [sourceFaults, log_cons _ hr, List.append_assoc]
      exact (congrArg _ hcourse.faults).trans hfirst.faults

end

end Pipeline

end WindowTally
