import Mathlib.Algebra.Group.Nat.Defs
import Mathlib.Order.Bounds.Basic
import WindowTally.Proofs.SettingsRules

/-!
# Times in the settings

Two times in the settings are worked out in 64 bits.

* The pause before a retry doubles until it meets its limit. A product that is too large for
  64 bits is larger than any limit too, so nothing of it shows: the pause is what the formula
  says in natural numbers (`DeliverySettings.backoff_eq_doubled`).
* The time between flushes is kept in the low 64 bits of its whole milliseconds. Below `2 ^ 64`
  milliseconds that is the time rounded down; a longer one starts over from zero, and a multiple
  of `2 ^ 64` milliseconds even counts as no time at all
  (`ProcessingSettings.withCommitInterval_greatest_iff`).
-/
namespace WindowTally

namespace Rule

variable {r : Rule} {rules before after : List Rule} {fault : Fault}

theorem exists_of_verdict (h : verdict rules = .error fault) : ∃ r ∈ rules, r.fault = fault := by
  rw [verdict_eq_error_iff, Option.map_eq_some_iff] at h
  obtain ⟨r, hr, hfault⟩ := h
  exact ⟨r, List.mem_of_find?_eq_some hr, hfault⟩

/-- A fault that only one rule gives is the verdict if that rule is broken and none before it. -/
theorem verdict_append_cons_iff (h : ∀ r' ∈ before ++ after, r'.fault ≠ r.fault) :
    verdict (before ++ r :: after) = .error r.fault ↔
      (∀ r' ∈ before, r'.broken = false) ∧ r.broken = true := by
  induction before with
  | nil =>
    rw [List.nil_append, verdict_cons]
    cases hbroken : r.broken with
    | true => simp
    | false =>
      simp only [Bool.false_eq_true, if_false, and_false, iff_false]
      intro hverdict
      obtain ⟨r', hr', hsame⟩ := exists_of_verdict hverdict
      exact h r' hr' hsame
  | cons first before ih =>
    have hfirst : first.fault ≠ r.fault := h first List.mem_cons_self
    have hrest := ih fun r' hr' => h r' (List.mem_cons_of_mem _ hr')
    rw [List.cons_append, verdict_cons, List.forall_mem_cons]
    cases hbroken : first.broken with
    | true => simp [hfirst]
    | false => simpa using hrest

end Rule

/-! ## Pauses -/

namespace DeliverySettings

variable (s : DeliverySettings)

theorem toNat_min (a b : UInt64) : (min a b).toNat = min a.toNat b.toNat := by
  show (if a ≤ b then a else b).toNat = _
  split
  · next h =>
    rw [UInt64.le_iff_toNat_le] at h
    exact (Nat.min_eq_left h).symm
  · next h =>
    rw [UInt64.le_iff_toNat_le] at h
    exact (Nat.min_eq_right (Nat.le_of_not_le h)).symm

theorem toNat_mulSaturating (a b : UInt64) :
    (mulSaturating a b).toNat = min (a.toNat * b.toNat) (2 ^ 64 - 1) := by
  unfold mulSaturating
  apply UInt64.toNat_ofNat_of_lt'
  show _ < 2 ^ 64
  omega

theorem toNat_doublings (k : Nat) : (UInt64.ofNat (1 <<< min k 16)).toNat = 2 ^ min k 16 := by
  have hle : 2 ^ min k 16 ≤ 2 ^ 16 := Nat.pow_le_pow_right (by decide) (Nat.min_le_right _ _)
  rw [Nat.one_shiftLeft]
  exact UInt64.toNat_ofNat_of_lt' (Nat.lt_of_le_of_lt hle (by decide))

theorem toNat_backoff (retry : UInt32) : (s.backoff retry).toNat =
    min (s.baseBackoff.toNat * 2 ^ min (max retry.toNat 1 - 1) 16) s.maxBackoff.toNat := by
  have hretry : max retry.toNat 1 - 1 = retry.toNat - 1 := by omega
  have hlimit := s.maxBackoff.toNat_lt
  unfold backoff
  rw [toNat_min, toNat_mulSaturating, toNat_doublings, hretry]
  -- a product beyond 64 bits is cut to the largest number, and that is no less than the limit
  omega

theorem backoff_mono {r r' : UInt32} (h : r ≤ r') : s.backoff r ≤ s.backoff r' := by
  rw [UInt32.le_iff_toNat_le] at h
  rw [UInt64.le_iff_toNat_le, toNat_backoff, toNat_backoff]
  have hdoublings : min (max r.toNat 1 - 1) 16 ≤ min (max r'.toNat 1 - 1) 16 := by omega
  have hproduct := Nat.mul_le_mul_left s.baseBackoff.toNat
    (Nat.pow_le_pow_right (show 0 < 2 by decide) hdoublings)
  omega

theorem backoff_le (retry : UInt32) : s.backoff retry ≤ s.maxBackoff := by
  rw [UInt64.le_iff_toNat_le, toNat_backoff]
  exact Nat.min_le_right _ _

variable {s} in
theorem base_le_max_of_check (h : s.check = .ok ()) : s.baseBackoff ≤ s.maxBackoff := by
  rw [check_eq, Rule.verdict_eq_ok_iff] at h
  have hlimit := h ⟨s.maxBackoff < s.baseBackoff, .settings .backoffAboveLimit⟩ (by simp [rules])
  exact UInt64.not_lt.1 (of_decide_eq_false hlimit)

variable {s} in
theorem base_le_backoff (h : s.baseBackoff ≤ s.maxBackoff) (retry : UInt32) :
    s.baseBackoff ≤ s.backoff retry := by
  rw [UInt64.le_iff_toNat_le] at h ⊢
  rw [toNat_backoff]
  have hproduct := Nat.le_mul_of_pos_right s.baseBackoff.toNat
    (Nat.two_pow_pos (min (max retry.toNat 1 - 1) 16))
  omega

/-- A pause is the base, doubled for each retry before, sixteen times at most, or the limit if that
is less. Later retries pause no shorter. Where the settings are accepted, no pause is shorter than
the base. -/
theorem backoff_eq_doubled :
    (∀ retry, (s.backoff retry).toNat =
      min (s.baseBackoff.toNat * 2 ^ min (max retry.toNat 1 - 1) 16) s.maxBackoff.toNat) ∧
    (∀ r r', r ≤ r' → s.backoff r ≤ s.backoff r') ∧
    (∀ retry, s.backoff retry ≤ s.maxBackoff) ∧
    (s.check = .ok () → ∀ retry, s.baseBackoff ≤ s.backoff retry) :=
  ⟨s.toNat_backoff, fun _ _ => s.backoff_mono, s.backoff_le,
    fun h => base_le_backoff (base_le_max_of_check h)⟩

/-- A base whose doubles soon pass 64 bits: the third retry pauses `2 ^ 64 - 1` milliseconds and not
`2 ^ 64`, and so does every later one. -/
theorem backoff_eq_doubled_past_word :
    let s : DeliverySettings :=
      { baseBackoff := 0x4000000000000000, maxBackoff := 0xFFFFFFFFFFFFFFFF }
    (s.backoff 2).toNat = 2 ^ 63 ∧ (s.backoff 3).toNat = min (2 ^ 64) (2 ^ 64 - 1) ∧
    s.backoff 3 ≤ s.backoff 0xFFFFFFFF ∧ s.baseBackoff ≤ s.backoff 0 := by
  intro s
  obtain ⟨hvalue, hmono, -, hbase⟩ := s.backoff_eq_doubled
  exact ⟨(hvalue 2).trans (by decide), (hvalue 3).trans (by decide),
    hmono 3 0xFFFFFFFF (by decide), hbase rfl 0⟩

end DeliverySettings

/-! ## The time between flushes -/

/-- A length of time in billionths of a second. -/
def Span.nanoseconds (d : Span) : Nat := d.secs.toNat * 1000000000 + d.nanos.toNat

theorem Span.millis_eq (d : Span) : d.millis = d.nanoseconds / 1000000 := by
  unfold millis nanoseconds
  omega

theorem Span.millis_mono {d d' : Span} (h : d.nanoseconds ≤ d'.nanoseconds) :
    d.millis ≤ d'.millis := by
  rw [millis_eq, millis_eq]
  exact Nat.div_le_div_right h

/-- The whole milliseconds in a length of time that 64 bits can hold. -/
def Span.heldMillis (d : Span) : Set Nat := {n | n * 1000000 ≤ d.nanoseconds ∧ n < 2 ^ 64}

theorem Span.isGreatest_heldMillis (d : Span) :
    IsGreatest d.heldMillis (min d.millis (2 ^ 64 - 1)) := by
  rw [millis_eq]
  constructor
  · constructor
    · omega
    · omega
  · rintro n ⟨hn, hlt⟩
    omega

namespace ProcessingSettings

variable (s : ProcessingSettings)

theorem toNat_withCommitInterval (d : Span) :
    (s.withCommitInterval d).commitInterval.toNat = d.millis % 2 ^ 64 :=
  UInt64.toNat_ofNat'

theorem greatest_withCommitInterval_iff (d : Span) :
    IsGreatest d.heldMillis (s.withCommitInterval d).commitInterval.toNat ↔
      d.millis < 2 ^ 64 ∨ 2 ^ 64 ∣ d.millis + 1 := by
  rw [toNat_withCommitInterval]
  have hheld := d.isGreatest_heldMillis
  constructor
  · intro h
    have heq := h.unique hheld
    omega
  · intro h
    have heq : d.millis % 2 ^ 64 = min d.millis (2 ^ 64 - 1) := by omega
    rw [heq]
    exact hheld

theorem withCommitInterval_mono {d d' : Span} (h : d.nanoseconds ≤ d'.nanoseconds)
    (hsame : d.millis / 2 ^ 64 = d'.millis / 2 ^ 64) :
    (s.withCommitInterval d).commitInterval ≤ (s.withCommitInterval d').commitInterval := by
  have hmillis := Span.millis_mono h
  rw [UInt64.le_iff_toNat_le, toNat_withCommitInterval, toNat_withCommitInterval]
  omega

theorem commitInterval_eq_zero_iff (d : Span) :
    (s.withCommitInterval d).commitInterval = 0 ↔ 2 ^ 64 ∣ d.millis := by
  rw [← UInt64.toNat_inj, toNat_withCommitInterval, UInt64.toNat_zero]
  exact Nat.dvd_iff_mod_eq_zero.symm

/-- The rules about windows, grace and allowance, which are looked at before the one about the time
between flushes. -/
def earlierRules (s : ProcessingSettings) : List Rule := [
  ⟨s.windowLength ≤ 0, .window (.lengthNotPositive s.windowLength)⟩,
  ⟨s.windowLength < s.advance, .window (.advanceTooLong s.advance s.windowLength)⟩,
  ⟨s.advance < 0, .settings .negativeAdvance⟩,
  ⟨s.grace < 0, .settings .negativeGrace⟩,
  ⟨s.allowance < 0, .settings .negativeAllowance⟩]

theorem rules_eq : s.rules = s.earlierRules ++
    ⟨s.commitInterval = 0, .settings .noCommitInterval⟩ ::
      ⟨Text.isBlank s.store, .settings .blankStore⟩ :: s.delivery.rules := rfl

/-- A time between flushes of zero is the fault if nothing earlier is wrong. -/
theorem check_eq_noCommitInterval_iff : s.check = .error (.settings .noCommitInterval) ↔
    (∀ r ∈ s.earlierRules, r.broken = false) ∧ s.commitInterval = 0 := by
  rw [check_eq, rules_eq]
  refine (Rule.verdict_append_cons_iff ?_).trans ?_
  · intro r hr
    simp only [earlierRules, DeliverySettings.rules, List.mem_append, List.mem_cons,
      List.not_mem_nil, or_false] at hr
    rcases hr with (rfl | rfl | rfl | rfl | rfl) | rfl | rfl | rfl | rfl <;> simp
  · rw [decide_eq_true_iff]

/-- The time between flushes is the longest one, of those in whole milliseconds that 64 bits hold,
that is no longer than what was asked for, just when that is below `2 ^ 64` milliseconds, or in the
last millisecond before a multiple of it. It grows with what was asked for as long as no multiple of
`2 ^ 64` milliseconds lies between, and it is refused as no time at all just when it is less than a
millisecond after such a multiple. -/
theorem withCommitInterval_greatest_iff :
    (∀ d, (s.withCommitInterval d).commitInterval.toNat = d.nanoseconds / 1000000 % 2 ^ 64) ∧
    (∀ d, IsGreatest d.heldMillis (s.withCommitInterval d).commitInterval.toNat ↔
      d.millis < 2 ^ 64 ∨ 2 ^ 64 ∣ d.millis + 1) ∧
    (∀ d d', d.nanoseconds ≤ d'.nanoseconds → d.millis / 2 ^ 64 = d'.millis / 2 ^ 64 →
      (s.withCommitInterval d).commitInterval ≤ (s.withCommitInterval d').commitInterval) ∧
    ∀ d, (s.withCommitInterval d).check = .error (.settings .noCommitInterval) ↔
      (∀ r ∈ s.earlierRules, r.broken = false) ∧ 2 ^ 64 ∣ d.millis := by
  refine ⟨fun d => ?_, s.greatest_withCommitInterval_iff,
    fun d d' => s.withCommitInterval_mono, fun d => ?_⟩
  · rw [toNat_withCommitInterval, Span.millis_eq]
  · rw [check_eq_noCommitInterval_iff, commitInterval_eq_zero_iff]
    rfl

/-- Just below two seconds, and a nanosecond below `2 ^ 64` milliseconds. -/
theorem withCommitInterval_greatest_below_limit :
    let s : ProcessingSettings := {}
    let d : Span := ⟨1, 999999999⟩
    let d' : Span := ⟨18446744073709551, 615999999⟩
    (s.withCommitInterval d).commitInterval.toNat = 1999 ∧
    IsGreatest d'.heldMillis (s.withCommitInterval d').commitInterval.toNat ∧
    (s.withCommitInterval d).commitInterval ≤ (s.withCommitInterval d').commitInterval ∧
    (s.withCommitInterval d').check ≠ .error (.settings .noCommitInterval) := by
  intro s d d'
  obtain ⟨hvalue, hgreatest, hmono, hrefused⟩ := s.withCommitInterval_greatest_iff
  refine ⟨(hvalue d).trans (by decide), (hgreatest d').2 (.inl (by decide)),
    hmono d d' (by decide) (by decide), fun hcheck => ?_⟩
  obtain ⟨-, hdvd⟩ := (hrefused d').1 hcheck
  exact absurd hdvd (by decide)

/-- A time of `2 ^ 64` milliseconds, of which nothing is left: the settings are refused as if they
asked for no time, and a second is kept as a longer time. -/
theorem withCommitInterval_starts_over :
    let s : ProcessingSettings := {}
    let d : Span := ⟨18446744073709551, 616000000⟩
    let second : Span := ⟨1, 0⟩
    1000000 ≤ d.nanoseconds ∧ d.nanos < 1000000000 ∧ second.nanoseconds ≤ d.nanoseconds ∧
    (s.withCommitInterval d).check = .error (.settings .noCommitInterval) ∧
    IsGreatest d.heldMillis (2 ^ 64 - 1) ∧
    ¬ IsGreatest d.heldMillis (s.withCommitInterval d).commitInterval.toNat ∧
    ¬ (s.withCommitInterval second).commitInterval ≤ (s.withCommitInterval d).commitInterval := by
  intro s d second
  have hheld := d.isGreatest_heldMillis
  rw [show min d.millis (2 ^ 64 - 1) = 2 ^ 64 - 1 by decide] at hheld
  refine ⟨by decide, by decide, by decide, by decide, hheld, ?_, by decide⟩
  rw [greatest_withCommitInterval_iff]
  decide

end ProcessingSettings

end WindowTally
