import WindowTally.Proofs.JsonLines

/-!
# Lines in limited space

A `LineSink` with a limit takes word counts as long as their lines fit, cuts the first line
that does not, and is full from then on. So it holds just as many bytes of all the lines as
it has room for, and a word count is taken just when its line and all lines before it fit: the
answers are some that take and then only refusals, each of its own word count
(`limited_lines`).
-/
namespace WindowTally.LineSink

variable {s : LineSink} {capacity : Nat} {c : WordCount}

/-! ## One line -/

theorem line_ne_nil (c : WordCount) : line c ≠ [] := by
  rw [line_eq]
  exact List.append_ne_nil_of_right_ne_nil _ (List.cons_ne_nil _ _)

/-- The refusal of a word count whose line is not written to its end. -/
def cut (c : WordCount) : Except DeliveryFault Unit := .error (c.rejected "write zero")

theorem deliver_of_room (hcapacity : s.capacity = some capacity)
    (h : (line c).length ≤ capacity - s.written.length) :
    Sink.deliver s c = (.ok (), { s with written := s.written ++ line c }) := by
  change deliver s c = _
  rw [deliver, hcapacity]
  exact if_pos h

theorem deliver_of_no_room (hcapacity : s.capacity = some capacity)
    (h : ¬ (line c).length ≤ capacity - s.written.length) :
    Sink.deliver s c = (cut c, { s with
      written := s.written ++ (line c).take (capacity - s.written.length) }) := by
  change deliver s c = _
  rw [deliver, hcapacity]
  exact if_neg h

/-! ## Many lines -/

/-- The bytes of the lines of some word counts. -/
def size (cs : List WordCount) : Nat := (cs.flatMap line).length

theorem size_cons (c : WordCount) (cs : List WordCount) :
    size (c :: cs) = (line c).length + size cs := by
  rw [size, List.flatMap_cons, List.length_append, size]

theorem size_take_mono (cs : List WordCount) {i j : Nat} (h : i ≤ j) :
    size (cs.take i) ≤ size (cs.take j) := by
  obtain ⟨more, hmore⟩ : cs.take i <+: cs.take j := List.take_prefix_take_left h
  rw [size, size, ← hmore, List.flatMap_append, List.length_append]
  exact Nat.le_add_right _ _

/-- A full sink refuses every word count and stays as it is. -/
theorem deliverAll_of_full (hcapacity : s.capacity = some capacity)
    (hfull : capacity ≤ s.written.length) (cs : List WordCount) :
    Sink.deliverAll s cs = (cs.map cut, s) := by
  induction cs with
  | nil => rfl
  | cons c cs ih =>
    have hroom : capacity - s.written.length = 0 := Nat.sub_eq_zero_of_le hfull
    have hline : ¬ (line c).length ≤ capacity - s.written.length := by
      rw [hroom, Nat.le_zero, List.length_eq_zero_iff]
      exact line_ne_nil c
    rw [Sink.deliverAll, deliver_of_no_room hcapacity hline, hroom, List.take_zero,
      List.append_nil]
    simp only [ih, List.map_cons]

/-- The first `k` of these lines fit into so many bytes, and no more do. -/
structure Fit (room : Nat) (cs : List WordCount) (k : Nat) : Prop where
  le : k ≤ cs.length
  fits : size (cs.take k) ≤ room
  overflows : k < cs.length → room < size (cs.take (k + 1))

/-- The answers of a sink when `k` of these word counts are taken. -/
def answers (cs : List WordCount) (k : Nat) : List (Except DeliveryFault Unit) :=
  List.replicate k (.ok ()) ++ (cs.drop k).map cut

/-- As many word counts are taken as there is room for their lines, and all the room is used. -/
theorem deliverAll_limited (hcapacity : s.capacity = some capacity) (cs : List WordCount) :
    ∃ k, Fit (capacity - s.written.length) cs k ∧ Sink.deliverAll s cs = (answers cs k,
      { s with written :=
        s.written ++ (cs.flatMap line).take (capacity - s.written.length) }) := by
  induction cs generalizing s with
  | nil =>
    refine ⟨0, ⟨Nat.le_refl _, Nat.zero_le _, fun h => absurd h (Nat.lt_irrefl _)⟩, ?_⟩
    rw [List.flatMap_nil, List.take_nil, List.append_nil]
    rfl
  | cons c cs ih =>
    by_cases hroom : (line c).length ≤ capacity - s.written.length
    · obtain ⟨k, hfit, hrest⟩ := ih (s := { s with written := s.written ++ line c }) hcapacity
      have hleft : capacity - (s.written ++ line c).length =
          capacity - s.written.length - (line c).length := by
        rw [List.length_append, Nat.sub_sub]
      simp only [hleft] at hfit hrest
      refine ⟨k + 1, ⟨Nat.succ_le_succ hfit.le, ?_, fun h => ?_⟩, ?_⟩
      · rw [List.take_succ_cons, size_cons]
        have hfits := hfit.fits
        omega
      · rw [List.take_succ_cons, size_cons]
        have hoverflows := hfit.overflows (Nat.lt_of_succ_lt_succ h)
        omega
      · rw [Sink.deliverAll, deliver_of_room hcapacity hroom]
        simp only [hrest]
        rw [List.flatMap_cons, List.take_append, List.take_of_length_le hroom, List.append_assoc]
        rfl
    · have hcut : ((line c).take (capacity - s.written.length)).length =
          capacity - s.written.length := by
        rw [List.length_take, Nat.min_eq_left (Nat.le_of_not_le hroom)]
      have hfull : capacity ≤ (s.written ++ (line c).take (capacity - s.written.length)).length := by
        rw [List.length_append, hcut]
        omega
      have hrest := deliverAll_of_full (s := { s with
        written := s.written ++ (line c).take (capacity - s.written.length) }) hcapacity hfull cs
      refine ⟨0, ⟨Nat.zero_le _, Nat.zero_le _, fun _ => ?_⟩, ?_⟩
      · rw [List.take_succ_cons, List.take_zero, size_cons]
        exact Nat.lt_add_right _ (Nat.lt_of_not_le hroom)
      · rw [Sink.deliverAll, deliver_of_no_room hcapacity hroom]
        simp only [hrest]
        rw [List.flatMap_cons, List.take_append_of_le_length (Nat.le_of_not_le hroom)]
        rfl

/-! ## From the start -/

theorem getElem?_answers {room k : Nat} {cs : List WordCount} (hfit : Fit room cs k) {i : Nat}
    {c : WordCount} (h : cs[i]? = some c) : (answers cs k)[i]? =
      some (if size (cs.take (i + 1)) ≤ room then .ok () else cut c) := by
  obtain ⟨hi, -⟩ := List.getElem?_eq_some_iff.1 h
  unfold answers
  by_cases hik : i < k
  · have hsize := Nat.le_trans (size_take_mono cs (Nat.succ_le_of_lt hik)) hfit.fits
    rw [if_pos hsize, List.getElem?_append_left (by rwa [List.length_replicate]),
      List.getElem?_replicate_of_lt hik]
  · have hki := Nat.le_of_not_lt hik
    have hoverflows := hfit.overflows (Nat.lt_of_le_of_lt hki hi)
    have hsize := Nat.lt_of_lt_of_le hoverflows (size_take_mono cs (Nat.succ_le_succ hki))
    rw [if_neg (Nat.not_le_of_lt hsize), List.getElem?_append_right (by rwa [List.length_replicate]),
      List.length_replicate, List.getElem?_map, List.getElem?_drop, Nat.add_sub_cancel' hki, h]
    rfl

/-- A sink with a limit holds as many bytes of all lines as it has room for. A word count is taken
just when its line fits together with all lines before it, so after the first refusal there are
only refusals, each naming its own word count. A line is the UTF-8 of the JSON text ended by one
line feed (`line_eq`), and it is read back as the record of that text, which stands for the same
word count (`LineSource.poll_line`, `WordCount.ofPayload?_encode`). -/
theorem limited_lines (name : String) (capacity : Nat) (cs : List WordCount) :
    (Sink.deliverAll ({ name, capacity := some capacity } : LineSink) cs).2.written =
        (cs.flatMap line).take (min capacity (size cs)) ∧
      (∀ i : Fin cs.length,
        (Sink.deliverAll ({ name, capacity := some capacity } : LineSink) cs).1[i.val]? =
          some (if size (cs.take (i + 1)) ≤ capacity then .ok ()
            else .error (.rejected cs[i].word cs[i].window.id "write zero"))) ∧
      ∃ k ≤ cs.length, (Sink.deliverAll ({ name, capacity := some capacity } : LineSink) cs).1 =
        List.replicate k (.ok ()) ++
          (cs.drop k).map fun c => .error (.rejected c.word c.window.id "write zero") := by
  obtain ⟨k, hfit, hall⟩ := deliverAll_limited
    (s := ({ name, capacity := some capacity } : LineSink)) rfl cs
  rw [hall]
  refine ⟨?_, fun i => getElem?_answers hfit (List.getElem?_eq_getElem i.isLt), k, hfit.le, rfl⟩
  rw [size, ← List.take_eq_take_min]
  rfl

end WindowTally.LineSink
