import Mathlib.Data.List.Induction
import Mathlib.Tactic.TFAE
import WindowTally.Delivery.Writer
import WindowTally.Proofs.LimitedLines
import WindowTally.Proofs.Unstopped

/-!
# Torn lines

A writer that takes part of a line and then fails keeps that part. So what a `WriterSink`
has written is made of parts of lines: the whole line where the word count was taken, and the
first bytes of it, be it none or all, where it was refused. All that is held is lines of word
counts that were taken just when every refusal came with the first write of its line
(`WriterSink.written_in_parts`).

A delivery that is tried again after its line was torn leaves the new line behind the torn one
(`written_in_parts_interrupted`). A `LineSink` is a `WriterSink` over a writer in memory, which
tears a line when there is room for part of it (`LineSink.torn_line`).
-/
namespace WindowTally

/-! ## Delivering one word count more -/

namespace Sink
variable {σ : Type} [Sink σ]

/-- The word counts that a sink takes when it is offered these. -/
def taken (s : σ) : List WordCount → List WordCount
  | [] => []
  | c :: cs =>
    match (deliver s c).1 with
    | .ok _ => c :: taken (deliver s c).2 cs
    | .error _ => taken (deliver s c).2 cs

theorem after_cons (s : σ) (c : WordCount) (cs : List WordCount) :
    after s (c :: cs) = after (deliver s c).2 cs := rfl

theorem after_append (s : σ) (cs ds : List WordCount) :
    after s (cs ++ ds) = after (after s cs) ds := List.foldl_append

theorem taken_append (s : σ) (cs ds : List WordCount) :
    taken s (cs ++ ds) = taken s cs ++ taken (after s cs) ds := by
  induction cs generalizing s with
  | nil => rfl
  | cons c cs ih =>
    rw [List.cons_append, taken, taken, ih, after_cons]
    split <;> rfl

theorem after_concat (s : σ) (cs : List WordCount) (c : WordCount) :
    after s (cs ++ [c]) = (deliver (after s cs) c).2 := after_append s cs [c]

theorem taken_concat_of_ok {s : σ} {cs : List WordCount} {c : WordCount}
    (h : (deliver (after s cs) c).1 = .ok ()) : taken s (cs ++ [c]) = taken s cs ++ [c] := by
  rw [taken_append, taken, h]
  rfl

theorem taken_concat_of_error {s : σ} {cs : List WordCount} {c : WordCount} {fault : DeliveryFault}
    (h : (deliver (after s cs) c).1 = .error fault) : taken s (cs ++ [c]) = taken s cs := by
  rw [taken_append, taken, h]
  exact List.append_nil _

end Sink

/-! ## Writing all of a line -/

namespace Writer

variable {ω : Type} [Writer ω] {w : ω} {bytes : List UInt8}

/-- A write of these bytes takes none of them. -/
def Refuses (w : ω) (bytes : List UInt8) : Prop :=
  (write w bytes).1 = .ok 0 ∨ ∃ reason, (write w bytes).1 = .error reason

theorem writeAll_of_ok {n : Nat} (hbytes : bytes ≠ []) (h : (write w bytes).1 = .ok (n + 1)) :
    writeAll w bytes = writeAll (write w bytes).2 (bytes.drop (n + 1)) := by
  obtain ⟨answer, w', hwrite⟩ : ∃ answer w', write w bytes = (answer, w') := ⟨_, _, rfl⟩
  rw [hwrite] at h
  rw [writeAll, if_neg hbytes, hwrite, show answer = .ok (n + 1) from h]

/-- What is not taken at first is not tried again. -/
theorem writeAll_of_refuses (hbytes : bytes ≠ []) (h : Refuses w bytes) :
    (∃ reason, (writeAll w bytes).1 = .error reason) ∧
      (writeAll w bytes).2 = (write w bytes).2 := by
  obtain ⟨answer, w', hwrite⟩ : ∃ answer w', write w bytes = (answer, w') := ⟨_, _, rfl⟩
  rw [Refuses, hwrite] at h
  rw [writeAll, if_neg hbytes, hwrite]
  rcases h with hzero | ⟨reason, hreason⟩
  · rw [show answer = .ok 0 from hzero]
    exact ⟨⟨_, rfl⟩, rfl⟩
  · rw [show answer = .error reason from hreason]
    exact ⟨⟨_, rfl⟩, rfl⟩

theorem exists_of_not_refuses (h : ¬ Refuses w bytes) :
    ∃ n, (write w bytes).1 = .ok (n + 1) := by
  unfold Refuses at h
  rw [not_or] at h
  cases hwrite : (write w bytes).1 with
  | error reason => exact absurd ⟨reason, hwrite⟩ h.2
  | ok n =>
    cases n with
    | zero => exact absurd hwrite h.1
    | succ n => exact ⟨n, rfl⟩

variable [LawfulWriter ω]

open LawfulWriter

theorem held_of_refuses (h : Refuses w bytes) : held (write w bytes).2 = held w := by
  rcases h with hzero | ⟨reason, hreason⟩
  · rw [held_of_ok hzero, List.take_zero, List.append_nil]
  · exact held_of_error hreason

/-- The bytes that are taken are the first ones, and all of them if nothing fails. -/
theorem held_writeAll (w : ω) (bytes : List UInt8) : ∃ n ≤ bytes.length,
    held (writeAll w bytes).2 = held w ++ bytes.take n ∧
      ((writeAll w bytes).1 = .ok () → n = bytes.length) := by
  induction hlength : bytes.length using Nat.strongRecOn generalizing w bytes with
  | ind length ih =>
    subst hlength
    by_cases hbytes : bytes = []
    · refine ⟨0, Nat.zero_le _, ?_, fun _ => ?_⟩
      · rw [writeAll, if_pos hbytes, List.take_zero, List.append_nil]
      · rw [hbytes, List.length_nil]
    by_cases hrefuses : Refuses w bytes
    · obtain ⟨⟨reason, hreason⟩, hafter⟩ := writeAll_of_refuses hbytes hrefuses
      refine ⟨0, Nat.zero_le _, ?_, fun hok => ?_⟩
      · rw [hafter, List.take_zero, List.append_nil, held_of_refuses hrefuses]
      · rw [hreason] at hok
        cases hok
    · obtain ⟨m, hwrite⟩ := exists_of_not_refuses hrefuses
      have hle := length_le hwrite
      obtain ⟨n, hn, hheld, hall⟩ := ih (bytes.drop (m + 1)).length
        (by rw [List.length_drop]; omega) (write w bytes).2 _ rfl
      rw [List.length_drop] at hn hall
      rw [writeAll_of_ok hbytes hwrite, hheld]
      refine ⟨m + 1 + n, by omega, ?_, fun hok => ?_⟩
      · rw [held_of_ok hwrite, List.append_assoc, List.take_add (i := m + 1)]
      · have hrest := hall hok
        omega

/-- A writer that takes some of the bytes at first is not what it was. -/
theorem held_writeAll_ne (hbytes : bytes ≠ []) (h : ¬ Refuses w bytes) :
    held (writeAll w bytes).2 ≠ held w := by
  intro hsame
  obtain ⟨n, hwrite⟩ := exists_of_not_refuses h
  obtain ⟨m, -, hheld, -⟩ := held_writeAll (write w bytes).2 (bytes.drop (n + 1))
  rw [writeAll_of_ok hbytes hwrite, hheld, held_of_ok hwrite] at hsame
  have hlength := congrArg List.length hsame
  have hpos := List.length_pos_iff.2 hbytes
  simp only [List.length_append, List.length_take] at hlength
  omega

end Writer

/-! ## Delivering to a writer -/

namespace WriterSink

open Writer LineSink

variable {ω : Type} [Writer ω]

/-- What was written to the sink so far. -/
def held (s : WriterSink ω) : List UInt8 := Writer.held s.writer

/-- A word count is taken only when its whole line is written, and a refusal names it. -/
theorem answer_cases (s : WriterSink ω) (c : WordCount) :
    (Sink.deliver s c).1 = .ok () ∧ (writeAll s.writer (line c)).1 = .ok () ∨
      ∃ reason, (Sink.deliver s c).1 = .error (c.rejected reason) := by
  change (deliver s c).1 = _ ∧ _ ∨ ∃ reason, (deliver s c).1 = _
  unfold deliver
  split
  · next reason w hwritten => exact .inr ⟨reason, rfl⟩
  · next u w hwritten =>
    split
    · next reason w' hflush => exact .inr ⟨reason, rfl⟩
    · next v w' hflush =>
      rw [hwritten]
      exact .inl ⟨rfl, rfl⟩

variable [LawfulWriter ω]

/-- What the sink holds after a delivery is what its writer holds after the line. -/
theorem held_deliver (s : WriterSink ω) (c : WordCount) :
    (Sink.deliver s c).2.held = Writer.held (writeAll s.writer (line c)).2 := by
  change (deliver s c).2.held = _
  unfold deliver
  split
  · next hwritten =>
    rw [hwritten]
    rfl
  · next w hwritten =>
    have hflushed := LawfulWriter.held_flush w
    rw [hwritten]
    split
    · next hflush =>
      rw [hflush] at hflushed
      exact hflushed
    · next hflush =>
      rw [hflush] at hflushed
      exact hflushed

/-- What a delivery may have written, by the answer it got: the line, or the first bytes of it. -/
inductive Part (c : WordCount) : Except DeliveryFault Unit → List UInt8 → Prop
  | whole : Part c (.ok ()) (line c)
  | torn {part : List UInt8} (reason : String) (first : part <+: line c) :
    Part c (.error (c.rejected reason)) part

theorem part_of_deliver (s : WriterSink ω) (c : WordCount) : ∃ part,
    Part c (Sink.deliver s c).1 part ∧ (Sink.deliver s c).2.held = s.held ++ part := by
  obtain ⟨n, -, hheld, hall⟩ := held_writeAll s.writer (line c)
  rw [held_deliver]
  refine ⟨(line c).take n, ?_, hheld⟩
  rcases answer_cases s c with ⟨hok, hwritten⟩ | ⟨reason, hreason⟩
  · rw [hok, hall hwritten, List.take_length]
    exact .whole
  · rw [hreason]
    exact .torn reason (List.take_prefix n _)

/-- The sink holds one part after the other. -/
theorem parts_of_deliverAll (s : WriterSink ω) (cs : List WordCount) : ∃ parts,
    List.Forall₂ (fun d part => Part d.1 d.2 part) (cs.zip (Sink.deliverAll s cs).1) parts ∧
      (Sink.after s cs).held = s.held ++ parts.flatten := by
  induction cs generalizing s with
  | nil => exact ⟨[], .nil, (List.append_nil _).symm⟩
  | cons c cs ih =>
    obtain ⟨part, hpart, hheld⟩ := part_of_deliver s c
    obtain ⟨parts, hparts, hrest⟩ := ih (Sink.deliver s c).2
    refine ⟨part :: parts, .cons hpart hparts, ?_⟩
    rw [Sink.after_cons, hrest, hheld, List.flatten_cons, List.append_assoc]

/-- A delivery leaves the writer as it was just when the first write of the line takes nothing. -/
theorem held_deliver_iff (s : WriterSink ω) (c : WordCount) :
    (Sink.deliver s c).2.held = s.held ↔ Refuses s.writer (line c) := by
  rw [held_deliver]
  refine ⟨fun hsame => ?_, fun hrefuses => ?_⟩
  · by_contra hrefuses
    exact held_writeAll_ne (line_ne_nil c) hrefuses hsame
  · rw [(writeAll_of_refuses (line_ne_nil c) hrefuses).2]
    exact held_of_refuses hrefuses

/-! ## When no line is torn -/

/-- No refusal among these deliveries writes anything. -/
def Untorn (s : WriterSink ω) (cs : List WordCount) : Prop :=
  ∀ before c, before ++ [c] <+: cs → ∀ fault,
    (Sink.deliver (Sink.after s before) c).1 = .error fault →
      (Sink.deliver (Sink.after s before) c).2.held = (Sink.after s before).held

/-- Every refusal among them comes with the first write of the line. -/
def RefusedAtOnce (s : WriterSink ω) (cs : List WordCount) : Prop :=
  ∀ before c, before ++ [c] <+: cs → ∀ fault,
    (Sink.deliver (Sink.after s before) c).1 = .error fault →
      Refuses (Sink.after s before).writer (line c)

/-- At every point the sink holds the lines of the word counts it took, and nothing else. -/
def WholeLines (s : WriterSink ω) (cs : List WordCount) : Prop :=
  ∀ before, before <+: cs →
    (Sink.after s before).held = s.held ++ (Sink.taken s before).flatMap line

variable {s : WriterSink ω} {cs : List WordCount}

omit [LawfulWriter ω] in
theorem untorn_of_wholeLines (h : s.WholeLines cs) : s.Untorn cs := by
  intro before c hbefore fault hfault
  have hsofar := h before ((List.prefix_append before [c]).trans hbefore)
  have hnext := h (before ++ [c]) hbefore
  rw [Sink.after_concat, Sink.taken_concat_of_error hfault] at hnext
  exact hnext.trans hsofar.symm

theorem untorn_iff_refusedAtOnce : s.Untorn cs ↔ s.RefusedAtOnce cs := by
  unfold Untorn RefusedAtOnce
  simp only [held_deliver_iff]

theorem wholeLines_of_untorn (h : s.Untorn cs) : s.WholeLines cs := by
  intro before hbefore
  induction before using List.reverseRecOn with
  | nil => exact (List.append_nil _).symm
  | append_singleton before c ih =>
    have hsofar := ih ((List.prefix_append before [c]).trans hbefore)
    obtain ⟨part, hpart, hheld⟩ := part_of_deliver (Sink.after s before) c
    rw [Sink.after_concat]
    generalize hanswer : (Sink.deliver (Sink.after s before) c).1 = answer at hpart
    cases hpart with
    | whole =>
      rw [Sink.taken_concat_of_ok hanswer, hheld, hsofar, List.flatMap_append, List.append_assoc,
        List.flatMap_singleton]
    | torn reason first =>
      rw [Sink.taken_concat_of_error hanswer, h before c hbefore _ hanswer, hsofar]

end WriterSink

/-! ## Writers in memory -/

namespace MemoryWriter
variable {w : MemoryWriter} {bytes : List UInt8}

theorem write_eq (w : MemoryWriter) (bytes : List UInt8) : Writer.write w bytes =
    (.ok (w.takes bytes.length),
      { w with bytes := w.bytes ++ bytes.take (w.takes bytes.length) }) := rfl

theorem takes_le (w : MemoryWriter) (n : Nat) : w.takes n ≤ n := by
  unfold takes
  split
  · exact Nat.le_refl _
  · exact Nat.min_le_left _ _

instance : LawfulWriter MemoryWriter where
  length_le {w bytes n} h := by
    obtain rfl : w.takes bytes.length = n := Except.ok.inj h
    exact w.takes_le _
  held_of_ok {w bytes n} h := by
    obtain rfl : w.takes bytes.length = n := Except.ok.inj h
    rfl
  held_of_error h := nomatch h
  held_flush _ := rfl

theorem writeAll_of_full (hbytes : bytes ≠ []) (h : w.takes bytes.length = 0) :
    Writer.writeAll w bytes = (.error "write zero", w) := by
  rw [Writer.writeAll, if_neg hbytes, write_eq, h, List.take_zero, List.append_nil]

/-- A write that does not take everything fills the writer. -/
theorem takes_of_lt (h : w.takes bytes.length < bytes.length) (n : Nat) :
    ({ w with bytes := w.bytes ++ bytes.take (w.takes bytes.length) } : MemoryWriter).takes n =
      0 := by
  unfold takes at h ⊢
  cases hcapacity : w.capacity with
  | none =>
    simp only [hcapacity] at h
    exact absurd h (Nat.lt_irrefl _)
  | some capacity =>
    simp only [hcapacity, List.length_append, List.length_take] at h ⊢
    omega

theorem writeAll_of_room (hbytes : bytes ≠ []) (h : w.takes bytes.length = bytes.length) :
    Writer.writeAll w bytes = (.ok (), { w with bytes := w.bytes ++ bytes }) := by
  obtain ⟨n, hn⟩ := Nat.exists_eq_succ_of_ne_zero (Nat.ne_of_gt (List.length_pos_iff.2 hbytes))
  have hwrite := write_eq w bytes
  rw [h, List.take_length] at hwrite
  have hok : (Writer.write w bytes).1 = .ok (n + 1) := by rw [hwrite, hn]
  have hdrop : bytes.drop (n + 1) = [] := by rw [← Nat.succ_eq_add_one, ← hn, List.drop_length]
  rw [Writer.writeAll_of_ok hbytes hok, hwrite, hdrop, Writer.writeAll, if_pos rfl]

/-- A writer without room for everything takes what it has room for, and then nothing. -/
theorem writeAll_of_lt (h : w.takes bytes.length < bytes.length) : Writer.writeAll w bytes =
    (.error "write zero",
      { w with bytes := w.bytes ++ bytes.take (w.takes bytes.length) }) := by
  have hbytes : bytes ≠ [] := List.length_pos_iff.1 (Nat.zero_lt_of_lt h)
  have hwrite := write_eq w bytes
  have hfull := takes_of_lt h
  cases htakes : w.takes bytes.length with
  | zero => rw [writeAll_of_full hbytes htakes, List.take_zero, List.append_nil]
  | succ n =>
    rw [htakes] at h hwrite hfull
    have hrest : bytes.drop (n + 1) ≠ [] := by
      rw [ne_eq, List.drop_eq_nil_iff]
      exact Nat.not_le_of_lt h
    rw [Writer.writeAll_of_ok hbytes (congrArg Prod.fst hwrite), hwrite,
      writeAll_of_full hrest (hfull _)]

end MemoryWriter

namespace LineSink

/-- The same sink over a writer in memory. -/
def overWriter (s : LineSink) : WriterSink MemoryWriter :=
  { name := s.name, writer := { bytes := s.written, capacity := s.capacity } }

theorem deliver_overWriter (s : LineSink) (c : WordCount) :
    Sink.deliver s.overWriter c = ((Sink.deliver s c).1, (Sink.deliver s c).2.overWriter) := by
  change s.overWriter.deliver c = _
  rw [WriterSink.deliver]
  cases hcapacity : s.capacity with
  | none =>
    have htakes : s.overWriter.writer.takes (line c).length = (line c).length := by
      simp only [MemoryWriter.takes, overWriter, hcapacity]
    have hdeliver : Sink.deliver s c = (.ok (), { s with written := s.written ++ line c }) := by
      change deliver s c = _
      rw [deliver, hcapacity]
    rw [MemoryWriter.writeAll_of_room (line_ne_nil c) htakes, hdeliver]
    rfl
  | some capacity =>
    have htakes : s.overWriter.writer.takes (line c).length =
        min (line c).length (capacity - s.written.length) := by
      simp only [MemoryWriter.takes, overWriter, hcapacity]
    by_cases hroom : (line c).length ≤ capacity - s.written.length
    · rw [Nat.min_eq_left hroom] at htakes
      rw [MemoryWriter.writeAll_of_room (line_ne_nil c) htakes,
        deliver_of_room hcapacity hroom]
      rfl
    · rw [Nat.min_eq_right (Nat.le_of_not_le hroom)] at htakes
      have hlt := Nat.lt_of_not_le hroom
      rw [← htakes] at hlt
      rw [MemoryWriter.writeAll_of_lt hlt, htakes, deliver_of_no_room hcapacity hroom]
      rfl

end LineSink

/-! ## What a sink has written -/

namespace WriterSink

/-- A sink over a writer holds one part of a line for each delivery: the line where the word count
was taken, the first bytes of it where it was refused. The refusals leave nothing behind just when
all that is held is lines of word counts that were taken, and just when the first write of each
line that was refused took nothing. A `LineSink` is such a sink. -/
theorem written_in_parts {ω : Type} [Writer ω] [LawfulWriter ω] (s : WriterSink ω)
    (cs : List WordCount) :
    (∃ parts, List.Forall₂ (fun d part => Part d.1 d.2 part)
        (cs.zip (Sink.deliverAll s cs).1) parts ∧
      (Sink.after s cs).held = s.held ++ parts.flatten) ∧
    [s.Untorn cs, s.WholeLines cs, s.RefusedAtOnce cs].TFAE ∧
    ∀ (l : LineSink) (c : WordCount),
      Sink.deliver l.overWriter c = ((Sink.deliver l c).1, (Sink.deliver l c).2.overWriter) := by
  refine ⟨s.parts_of_deliverAll cs, ?_, LineSink.deliver_overWriter⟩
  tfae_have 1 ↔ 3 := untorn_iff_refusedAtOnce
  tfae_have 1 → 2 := wholeLines_of_untorn
  tfae_have 2 → 1 := untorn_of_wholeLines
  tfae_finish

end WriterSink

/-! ## Lines that are torn -/

/-- A writer whose first writes go as they have been told to, and which then takes everything. -/
structure ToldWriter where
  bytes : List UInt8 := []
  told : List (Except String Nat) := []
  deriving Repr

namespace ToldWriter

instance : Writer ToldWriter where
  write w bytes :=
    match w.told with
    | [] => (.ok bytes.length, { w with bytes := w.bytes ++ bytes })
    | .ok n :: told =>
      (.ok (min n bytes.length), { bytes := w.bytes ++ bytes.take n, told := told })
    | .error reason :: told => (.error reason, { w with told := told })
  flush w := (.ok (), w)
  held := bytes

instance : LawfulWriter ToldWriter where
  length_le {w bytes n} h := by
    obtain ⟨held, told⟩ := w
    rcases told with _ | ⟨_ | m, told⟩
    · obtain rfl := Except.ok.inj h
      exact Nat.le_refl _
    · cases h
    · obtain rfl := Except.ok.inj h
      exact Nat.min_le_right _ _
  held_of_ok {w bytes n} h := by
    obtain ⟨held, told⟩ := w
    rcases told with _ | ⟨_ | m, told⟩
    · obtain rfl := Except.ok.inj h
      rw [List.take_length]
      rfl
    · cases h
    · obtain rfl := Except.ok.inj h
      rw [← List.take_eq_take_min]
      rfl
  held_of_error {w bytes reason} h := by
    obtain ⟨held, told⟩ := w
    rcases told with _ | ⟨_ | m, told⟩
    · cases h
    · rfl
    · cases h
  held_flush _ := rfl

end ToldWriter

/-- One `foobar` in the first five seconds. -/
def foobar : WordCount := ⟨"foobar", 1, ⟨0, 5000⟩⟩

/-- A sink whose writer takes nine bytes, breaks once, and then works again. -/
def interrupted : WriterSink ToldWriter :=
  { name := "counts", writer := { told := [.ok 9, .error "broken pipe"] } }

/-- The theorem for a delivery that is interrupted and tried again: the second line is glued to
what there is of the first. -/
theorem written_in_parts_interrupted :
    (Sink.deliverAll interrupted [foobar, foobar]).1 =
      [.error (foobar.rejected "broken pipe"), .ok ()] ∧
    (Sink.after interrupted [foobar, foobar]).held =
      (LineSink.line foobar).take 9 ++ LineSink.line foobar ∧
    ¬ interrupted.WholeLines [foobar, foobar] := by
  obtain ⟨-, htfae, -⟩ := WriterSink.written_in_parts interrupted [foobar, foobar]
  have hfirst : (Sink.deliver interrupted foobar).1 = .error (foobar.rejected "broken pipe") := by
    decide +kernel
  refine ⟨by decide +kernel, by decide +kernel, fun hwhole => ?_⟩
  have huntorn : interrupted.Untorn [foobar, foobar] := (htfae.out 0 1).2 hwhole
  exact absurd (huntorn [] foobar ⟨[foobar], rfl⟩ _ hfirst) (by decide +kernel)

/-- A sink with room for ten bytes. -/
def tenBytes : LineSink := { name := "counts", capacity := some 10 }

/-- A refusal that leaves the beginning of its line behind. -/
theorem LineSink.torn_line :
    (Sink.deliver tenBytes foobar).1 = .error (foobar.rejected "write zero") ∧
    (Sink.deliver tenBytes foobar).2.written = (line foobar).take 10 ∧
    (Sink.deliver tenBytes foobar).2.written ≠ tenBytes.written := by
  decide +kernel

end WindowTally
