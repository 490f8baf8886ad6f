import WindowTally.Proofs.RetryLoop

/-!
# The counter of attempts

A delivery counts its attempts in 32 bits, and offers its word count again as long as the
counter is no larger than the number of retries. Here one delivery is followed by its number of
attempts, for any answers that it gets (`Delivery.after`; a pipeline takes it through just
these, `Pipeline.Follows`).

The counter stays in range and the delivery ends after one attempt more than there are
retries, unless the number of retries is the largest that 32 bits hold. No counter is larger
than that one, so only the sink can end such a delivery. After `2 ^ 32 - 1` refusals the
counter starts over from zero (`Delivery.counter_in_range_iff`).
-/
namespace WindowTally

namespace Delivery

theorem outcome_resolve_eq_none_iff {s : DeliverySettings} {d : Delivery} {now : Nat}
    {answer : Except DeliveryFault Unit} : (d.resolve s now answer).outcome? = none ↔
      (∃ fault, answer = .error fault) ∧ d.attempts + 1 ≤ s.maxRetries := by
  rw [outcome_resolve]
  cases answer with
  | ok u => simp
  | error fault => simp

/-! ## Attempt after attempt -/

variable (s : DeliverySettings) (c : WordCount) (times : Nat → Nat)
  (answers : Nat → Except DeliveryFault Unit)

/-- The delivery of a word count after `k` attempts, of which the one after `j` others is made at
`times j` and answered by `answers j`. A delivery that has ended makes no more of them. -/
def after : Nat → Delivery
  | 0 => { count := c }
  | k + 1 =>
    match (after k).outcome? with
    | some _ => after k
    | none => (after k).resolve s (times k) (answers k)

section
variable {s c times answers} {k : Nat}

theorem after_succ (h : (after s c times answers k).outcome? = none) :
    after s c times answers (k + 1) =
      (after s c times answers k).resolve s (times k) (answers k) := by
  rw [after, h]

theorem going_of_succ (h : (after s c times answers (k + 1)).outcome? = none) :
    (after s c times answers k).outcome? = none := by
  by_contra hended
  obtain ⟨outcome, houtcome⟩ := Option.ne_none_iff_exists'.1 hended
  rw [after, houtcome] at h
  rw [h] at houtcome
  cases houtcome

/-- A delivery that goes on has counted all its attempts, in 32 bits. -/
theorem attempts_of_going (h : (after s c times answers k).outcome? = none) :
    (after s c times answers k).count = c ∧
    (after s c times answers k).attempts = UInt32.ofNat k := by
  induction k with
  | zero => exact ⟨rfl, rfl⟩
  | succ k ih =>
    have hgoing := going_of_succ h
    obtain ⟨hcount, hattempts⟩ := ih hgoing
    rw [after_succ hgoing, count_resolve, attempts_resolve, hattempts]
    exact ⟨hcount, (UInt32.ofNat_add k 1).symm⟩

/-- A delivery goes on as long as it is refused and the counter allows for another retry. -/
theorem going_iff : (after s c times answers k).outcome? = none ↔
    ∀ j < k, (∃ fault, answers j = .error fault) ∧ UInt32.ofNat (j + 1) ≤ s.maxRetries := by
  induction k with
  | zero => exact iff_of_true rfl fun j hj => absurd hj (Nat.not_lt_zero j)
  | succ k ih =>
    have hstep (hgoing : (after s c times answers k).outcome? = none) :
        (after s c times answers (k + 1)).outcome? = none ↔
          (∃ fault, answers k = .error fault) ∧ UInt32.ofNat (k + 1) ≤ s.maxRetries := by
      rw [after_succ hgoing, outcome_resolve_eq_none_iff, (attempts_of_going hgoing).2]
      exact Iff.of_eq (congrArg (fun n => _ ∧ n ≤ s.maxRetries) (UInt32.ofNat_add k 1).symm)
    constructor
    · intro h j hj
      have hgoing := going_of_succ h
      rcases Nat.lt_succ_iff_lt_or_eq.1 hj with hlt | rfl
      · exact ih.1 hgoing j hlt
      · exact (hstep hgoing).1 h
    · intro h
      have hgoing := ih.2 fun j hj => h j (Nat.lt_succ_of_lt hj)
      exact (hstep hgoing).2 (h k (Nat.lt_succ_self k))

/-! ## With a number of retries that leaves the counter room -/

theorem le_of_going (hroom : s.maxRetries.toNat + 1 < 2 ^ 32)
    (h : (after s c times answers k).outcome? = none) : k ≤ s.maxRetries.toNat := by
  by_contra hlt
  obtain ⟨-, hle⟩ := going_iff.1 h s.maxRetries.toNat (Nat.lt_of_not_le hlt)
  rw [UInt32.le_iff_toNat_le, UInt32.toNat_ofNat_of_lt' hroom] at hle
  omega

/-! ## With the largest number of retries -/

theorem le_maxRetries_of_full (hfull : s.maxRetries.toNat + 1 = 2 ^ 32) (n : UInt32) :
    n ≤ s.maxRetries := by
  have hn := n.toNat_lt
  rw [UInt32.le_iff_toNat_le]
  omega

variable (c times) in
/-- Then a delivery goes on just as long as it is refused. -/
theorem going_iff_of_full (hfull : s.maxRetries.toNat + 1 = 2 ^ 32) :
    (after s c times answers k).outcome? = none ↔ ∀ j < k, ∃ fault, answers j = .error fault := by
  rw [going_iff]
  constructor
  · intro h j hj
    exact (h j hj).1
  · intro h j hj
    exact ⟨h j hj, le_maxRetries_of_full hfull _⟩

theorem le_of_going_of_taken {m : Nat} (htaken : answers m = .ok ())
    (h : (after s c times answers k).outcome? = none) : k ≤ m := by
  by_contra hlt
  obtain ⟨⟨fault, hfault⟩, -⟩ := going_iff.1 h m (Nat.lt_of_not_le hlt)
  rw [htaken] at hfault
  cases hfault

end

end Delivery

/-! ## The delivery in a pipeline -/

namespace Pipeline

variable {ι σ : Type} [Source ι] [Sink σ]

/-- The delivery at `i` goes through the deliveries `ds`, one for each number of attempts. -/
structure Follows (p : Pipeline ι σ) (i : Nat) (ds : Nat → Delivery) : Prop where
  /-- As long as it goes on, it comes to offer again, with the same counter. -/
  goes : ∀ k, (ds k).outcome? = none → ∃ q, p.steps (p.retryTurns i k) = some q ∧
    q.active[i]? = some { count := (ds k).count, attempts := (ds k).attempts }
  /-- The attempt that ends it is its last, and the dispatcher gets to know how it ended. -/
  ends : ∀ k outcome, (ds k).outcome? = none → (ds (k + 1)).outcome? = some outcome →
    ∃ q, p.steps (p.retryTurns i k ++ [.offer i]) = some q ∧
      q.active = p.active.eraseIdx i ∧ q.settled = p.settled ++ [outcome]

variable {p : Pipeline ι σ} {i k : Nat} {c : WordCount} {times : Nat → Nat}

theorem steps_of_going (h : p.active[i]? = some { count := c })
    (hgoing : (Delivery.after p.settings.delivery c times (Sink.answerAfter p.sink c) k).outcome? =
      none) : p.steps (p.retryTurns i k) = some (p.retrying i c k) := by
  rw [Delivery.going_iff] at hgoing
  exact steps_retryTurns h (fun j hj => (hgoing j hj).2) fun j hj => (hgoing j hj).1

omit [Source ι] in
/-- An offer that ends the delivery takes it out of those that run. -/
theorem offer_of_ended (hi : i < p.active.length) {outcome : Except DeliveryFault Unit}
    (h : ((p.retrying i c k).answered { count := c, attempts := UInt32.ofNat k }).outcome? =
      some outcome) : ∃ q, (p.retrying i c k).offer i = some q ∧
        q.active = p.active.eraseIdx i ∧ q.settled = p.settled ++ [outcome] := by
  rw [offer_eq (active_retrying hi) rfl, replace, h]
  exact ⟨_, rfl, List.eraseIdx_set_eq, rfl⟩

theorem follows_after (h : p.active[i]? = some { count := c }) :
    p.Follows i (Delivery.after p.settings.delivery c times (Sink.answerAfter p.sink c)) := by
  have hi : i < p.active.length := (List.getElem?_eq_some_iff.1 h).1
  refine ⟨fun k hgoing => ?_, fun k outcome hgoing hended => ?_⟩
  · obtain ⟨hcount, hattempts⟩ := Delivery.attempts_of_going hgoing
    rw [hcount, hattempts]
    exact ⟨_, steps_of_going h hgoing, active_retrying hi⟩
  · obtain ⟨hcount, hattempts⟩ := Delivery.attempts_of_going hgoing
    rw [Delivery.after_succ hgoing, Delivery.outcome_resolve, hcount, hattempts] at hended
    have hanswered : ((p.retrying i c k).answered
        { count := c, attempts := UInt32.ofNat k }).outcome? = some outcome := by
      rw [answered_retrying, Delivery.outcome_resolve]
      exact hended
    obtain ⟨q, hoffer, hq⟩ := offer_of_ended hi hanswered
    exact ⟨q, steps_concat (steps_of_going h hgoing) hoffer, hq⟩

end Pipeline

/-! ## When the counter stays in range -/

namespace Delivery

variable {s : DeliverySettings} {c : WordCount} {times : Nat → Nat}
  {answers : Nat → Except DeliveryFault Unit}

/-- No attempt takes the counter past the largest number of 32 bits. -/
def CounterInRange (ds : Nat → Delivery) : Prop :=
  ∀ k, (ds k).outcome? = none → (ds k).attempts.toNat + 1 < 2 ^ 32

/-- The delivery has ended after so many attempts. -/
def EndsWithin (ds : Nat → Delivery) (attempts : Nat) : Prop :=
  ∃ k ≤ attempts, (ds k).outcome? ≠ none

theorem inRange_of_le {m : Nat} (hm : m + 1 < 2 ^ 32)
    (h : ∀ k, (after s c times answers k).outcome? = none → k ≤ m) :
    CounterInRange (after s c times answers) ∧ EndsWithin (after s c times answers) (m + 1) := by
  constructor
  · intro k hgoing
    have hk := h k hgoing
    rw [(attempts_of_going hgoing).2, UInt32.toNat_ofNat_of_lt' (show k < 2 ^ 32 by omega)]
    omega
  · refine ⟨m + 1, Nat.le_refl _, fun hgoing => ?_⟩
    have hle := h (m + 1) hgoing
    omega

theorem exists_taken_of_inRange (hfull : s.maxRetries.toNat + 1 = 2 ^ 32)
    (h : CounterInRange (after s c times answers)) : ∃ k, k + 1 < 2 ^ 32 ∧ answers k = .ok () := by
  by_contra hnone
  have hrefused : ∀ j < 2 ^ 32 - 1, ∃ fault, answers j = .error fault := by
    intro j hj
    cases hanswer : answers j with
    | ok u => exact absurd ⟨j, by omega, hanswer⟩ hnone
    | error fault => exact ⟨fault, rfl⟩
  have hgoing := (going_iff_of_full c times hfull).2 hrefused
  have hlast := h _ hgoing
  rw [(attempts_of_going hgoing).2] at hlast
  exact absurd hlast (by decide)

theorem EndsWithin.mono {ds : Nat → Delivery} {m n : Nat} (h : EndsWithin ds m) (hle : m ≤ n) :
    EndsWithin ds n := by
  obtain ⟨k, hk, hended⟩ := h
  exact ⟨k, Nat.le_trans hk hle, hended⟩

variable (c times) in
/-- Refused for ever, a delivery with the largest number of retries never ends. -/
theorem going_of_refused (hfull : s.maxRetries.toNat + 1 = 2 ^ 32)
    (hrefused : ∀ k, ∃ fault, answers k = .error fault) (k : Nat) :
    (after s c times answers k).outcome? = none ∧
    (after s c times answers k).attempts.toNat = k % 2 ^ 32 := by
  have hgoing := (going_iff_of_full c times (k := k) hfull).2 fun j _ => hrefused j
  rw [(attempts_of_going hgoing).2]
  exact ⟨hgoing, UInt32.toNat_ofNat'⟩

/-- No attempt takes the counter out of its range, and the delivery ends after one attempt more than
there are retries, just when the number of retries is less than the largest or the sink takes the
word count at one of the first `2 ^ 32 - 1` attempts. With the largest number of retries a delivery
that is always refused goes on for ever, and its counter starts over. These are the deliveries that
a pipeline carries out. -/
theorem counter_in_range_iff (s : DeliverySettings) (c : WordCount) (times : Nat → Nat)
    (answers : Nat → Except DeliveryFault Unit) :
    (CounterInRange (after s c times answers) ∧
        EndsWithin (after s c times answers) (s.maxRetries.toNat + 1) ↔
      s.maxRetries.toNat + 1 < 2 ^ 32 ∨ ∃ k, k + 1 < 2 ^ 32 ∧ answers k = .ok ()) ∧
    (s.maxRetries.toNat + 1 = 2 ^ 32 → (∀ k, ∃ fault, answers k = .error fault) →
      ∀ k, (after s c times answers k).outcome? = none ∧
        (after s c times answers k).attempts.toNat = k % 2 ^ 32) ∧
    ∀ {ι σ : Type} [Source ι] [Sink σ] (p : Pipeline ι σ) (i : Nat),
      p.active[i]? = some { count := c } → p.settings.delivery = s →
      Sink.answerAfter p.sink c = answers → p.Follows i (after s c times answers) := by
  have hmax := s.maxRetries.toNat_lt
  refine ⟨⟨fun h => ?_, fun h => ?_⟩, going_of_refused c times, ?_⟩
  · by_cases hroom : s.maxRetries.toNat + 1 < 2 ^ 32
    · exact .inl hroom
    · exact .inr (exists_taken_of_inRange (by omega) h.1)
  · by_cases hroom : s.maxRetries.toNat + 1 < 2 ^ 32
    · exact inRange_of_le hroom fun k => le_of_going hroom
    · obtain ⟨k, hk, htaken⟩ := h.resolve_left hroom
      have hbefore (j : Nat) : (after s c times answers j).outcome? = none → j ≤ k :=
        le_of_going_of_taken htaken
      obtain ⟨hrange, hends⟩ := inRange_of_le hk hbefore
      exact ⟨hrange, hends.mono (by omega)⟩
  · rintro ι σ _ _ p i hactive rfl rfl
    exact Pipeline.follows_after hactive

end Delivery

/-! ## A sink that always refuses -/

/-- A sink in memory that is told to always refuse a word count never stops. -/
theorem MemorySink.answerAfter_of_always {s : MemorySink} (hs : s.Keyed) {c : WordCount}
    (h : s.budget c = FailureBudget.always) (k : Nat) :
    ∃ fault, Sink.answerAfter s c k = .error fault := by
  have hoffered : (Sink.offered s c k).Keyed ∧
      (Sink.offered s c k).budget c = FailureBudget.always := by
    induction k with
    | zero => exact ⟨hs, h⟩
    | succ k ih =>
      obtain ⟨hkeyed, halways⟩ := ih
      have hsome : (Sink.offered s c k).budget c ≠ 0 := by
        rw [halways]
        decide
      obtain ⟨-, -, hbudget⟩ := deliver_of_budget_ne_zero hkeyed hsome
      refine ⟨keyed_deliver hkeyed c, ?_⟩
      have hspent := hbudget c
      rw [if_pos rfl, halways] at hspent
      exact hspent
  have hsome : (Sink.offered s c k).budget c ≠ 0 := by
    rw [hoffered.2]
    decide
  exact (deliver_of_budget_ne_zero hoffered.1 hsome).1

namespace Pipeline

/-- The delivery of `a` runs, with the largest number of retries. -/
def mostRetries (budget : UInt32) : Pipeline ListSource MemorySink :=
  { atRest { tightAggregator with settings := { delivery := { maxRetries := 0xFFFFFFFF } } }
      { records := [] } (({} : MemorySink).failTimes "a" "0_5000" budget) with
    active := [{ count := ⟨"a", 1, ⟨0, 5000⟩⟩ }] }

end Pipeline

namespace Delivery

open Pipeline

/-- A sink that refuses the word count twice: the delivery ends with the third attempt, though the
number of retries is the largest. -/
theorem counter_in_range_of_two_refusals :
    let p := mostRetries 2
    let ds := after p.settings.delivery ⟨"a", 1, ⟨0, 5000⟩⟩ (fun _ => 0)
      (Sink.answerAfter p.sink ⟨"a", 1, ⟨0, 5000⟩⟩)
    CounterInRange ds ∧ EndsWithin ds (2 ^ 32) ∧ p.Follows 0 ds ∧
    ∃ q, p.steps (p.retryTurns 0 2 ++ [.offer 0]) = some q ∧ q.settled = [.ok ()] := by
  intro p ds
  obtain ⟨hrange, -, hfollows⟩ := counter_in_range_iff p.settings.delivery ⟨"a", 1, ⟨0, 5000⟩⟩
    (fun _ => 0) (Sink.answerAfter p.sink ⟨"a", 1, ⟨0, 5000⟩⟩)
  have hmost : p.settings.delivery.maxRetries.toNat + 1 = 2 ^ 32 := by decide
  obtain ⟨hcounter, hends⟩ := hrange.2 (.inr ⟨2, by decide, rfl⟩)
  rw [hmost] at hends
  have hfollowed := hfollows p 0 rfl rfl rfl
  obtain ⟨q, hsteps, -, hsettled⟩ := hfollowed.ends 2 (.ok ()) rfl rfl
  exact ⟨hcounter, hends, hfollowed, q, hsteps, hsettled⟩

/-- The settings are accepted, and the sink refuses the word count for ever. The attempt after
`2 ^ 32 - 1` others takes the counter to zero, and the delivery has not ended after one attempt more
than there are retries, nor after any other number of them. -/
theorem counter_starts_over_of_always_refused :
    let p := mostRetries FailureBudget.always
    let ds := after p.settings.delivery ⟨"a", 1, ⟨0, 5000⟩⟩ (fun _ => 0)
      (Sink.answerAfter p.sink ⟨"a", 1, ⟨0, 5000⟩⟩)
    p.settings.delivery.check = .ok () ∧ p.Follows 0 ds ∧
    (∀ k, (ds k).outcome? = none ∧ (ds k).attempts.toNat = k % 2 ^ 32) ∧
    ¬ CounterInRange ds ∧ ¬ EndsWithin ds (p.maxRetries.toNat + 1) := by
  intro p ds
  have hempty : ({} : MemorySink).Keyed := List.nodup_nil
  have hkeyed : p.sink.Keyed := MemorySink.keyed_failTimes hempty _ _ _
  have hrefused := MemorySink.answerAfter_of_always hkeyed (c := ⟨"a", 1, ⟨0, 5000⟩⟩) rfl
  have hgoing := going_of_refused (s := p.settings.delivery) ⟨"a", 1, ⟨0, 5000⟩⟩ (fun _ => 0)
    (by decide) hrefused
  refine ⟨rfl, follows_after rfl, hgoing, fun hrange => ?_, fun ⟨k, _, hended⟩ => ?_⟩
  · obtain ⟨k, -, htaken⟩ := exists_taken_of_inRange (by decide) hrange
    obtain ⟨fault, hfault⟩ := hrefused k
    rw [htaken] at hfault
    cases hfault
  · exact hended (hgoing k).1

end Delivery

end WindowTally
