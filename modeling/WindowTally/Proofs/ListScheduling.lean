import Mathlib.Algebra.Order.Field.Basic
import Mathlib.Algebra.Order.BigOperators.Group.List
import Mathlib.Data.List.Basic
import Mathlib.Tactic.FieldSimp
import Mathlib.Tactic.Linarith
import Mathlib.Tactic.Positivity
import Mathlib.Data.Rat.Lemmas

/-!
# List scheduling

Workers take on jobs in a given order, each job the worker that is free first. When the
last of them is done is the makespan of the schedule. With one worker it is the sum of the
jobs, with a worker for each job the longest of them (`makespan_one`,
`makespan_of_length_le`); in general it is at least the longest job and the average load,
and exceeds the average load by no more than the longest job, less its part of the average
(`makespan_bounds`): when a worker takes on its last job, no other has been free any
earlier.
-/
namespace WindowTally.Schedule

/-- The times at which workers are free, once the one that is free first has taken on a job of
length `d`. -/
def assign (free : List Nat) (d : Nat) : List Nat :=
  match free.min? with
  | none => []
  | some t => (t + d) :: free.erase t

/-- The times at which `m` workers are free that have taken on jobs in this order, each the one that
is free first. -/
def freeTimes (m : Nat) (ds : List Nat) : List Nat := ds.foldl assign (List.replicate m 0)

/-- The largest of several numbers. -/
def largest (ts : List Nat) : Nat := ts.foldr max 0

/-- When the last of `m` workers is done with jobs that are taken on in this order. -/
def makespan (m : Nat) (ds : List Nat) : Nat := largest (freeTimes m ds)

section
variable {ts : List Nat} {t : Nat}

theorem le_largest (h : t ∈ ts) : t ≤ largest ts := by
  induction ts with
  | nil => cases h
  | cons s ts ih =>
    rw [largest, List.foldr_cons]
    rcases List.mem_cons.1 h with rfl | h
    · exact Nat.le_max_left _ _
    · exact Nat.le_trans (ih h) (Nat.le_max_right _ _)

theorem largest_le_iff : largest ts ≤ t ↔ ∀ s ∈ ts, s ≤ t := by
  induction ts with
  | nil => simp [largest]
  | cons s ts ih =>
    rw [largest, List.foldr_cons, Nat.max_le, List.forall_mem_cons]
    exact and_congr_right fun _ => ih

theorem largest_mem (h : ts ≠ []) : largest ts ∈ ts := by
  induction ts with
  | nil => exact absurd rfl h
  | cons s ts ih =>
    rw [largest, List.foldr_cons]
    by_cases hts : ts = []
    · simp [hts]
    · rcases Nat.le_total s (largest ts) with hle | hle
      · rw [← largest, Nat.max_eq_right hle]
        exact List.mem_cons_of_mem _ (ih hts)
      · rw [← largest, Nat.max_eq_left hle]
        exact List.mem_cons_self

theorem largest_perm {ts' : List Nat} (h : ts.Perm ts') : largest ts = largest ts' := by
  refine Nat.le_antisymm (largest_le_iff.2 fun s hs => ?_) (largest_le_iff.2 fun s hs => ?_)
  · exact le_largest (h.mem_iff.1 hs)
  · exact le_largest (h.mem_iff.2 hs)

end

section
variable {free : List Nat} {t d : Nat}

/-- The worker that is free first takes the job on. -/
theorem assign_eq (ht : t ∈ free) (hle : ∀ s ∈ free, t ≤ s) (d : Nat) :
    assign free d = (t + d) :: free.erase t := by
  have hmin : free.min? = some t := List.min?_eq_some_iff.2 ⟨ht, hle⟩
  rw [assign, hmin]

theorem exists_first (h : free ≠ []) : ∃ t ∈ free, ∀ s ∈ free, t ≤ s := by
  obtain ⟨t, ht⟩ := Option.ne_none_iff_exists'.1 (mt List.min?_eq_none_iff.1 h)
  exact ⟨t, List.min?_eq_some_iff.1 ht⟩

theorem length_assign (h : free ≠ []) (d : Nat) : (assign free d).length = free.length := by
  obtain ⟨t, ht, hle⟩ := exists_first h
  rw [assign_eq ht hle, List.length_cons, List.length_erase_of_mem ht]
  have := List.length_pos_of_mem ht
  omega

theorem sum_assign (h : free ≠ []) (d : Nat) : (assign free d).sum = free.sum + d := by
  obtain ⟨t, ht, hle⟩ := exists_first h
  have hsum := List.sum_erase ht
  rw [assign_eq ht hle, List.sum_cons]
  omega

/-- No worker is free earlier for a job more, and one of them takes as long as the job. -/
theorem le_largest_assign (h : free ≠ []) (d : Nat) :
    largest free ≤ largest (assign free d) ∧ d ≤ largest (assign free d) := by
  obtain ⟨t, ht, hle⟩ := exists_first h
  rw [assign_eq ht hle]
  have hnew : t + d ≤ largest ((t + d) :: free.erase t) := le_largest List.mem_cons_self
  refine ⟨largest_le_iff.2 fun s hs => ?_, by omega⟩
  by_cases hst : s = t
  · omega
  · exact le_largest (List.mem_cons_of_mem _ ((List.mem_erase_of_ne hst).2 hs))

end

section
variable {m : Nat} (hm : 1 ≤ m) (ds : List Nat)

theorem freeTimes_concat (m : Nat) (ds : List Nat) (d : Nat) :
    freeTimes m (ds ++ [d]) = assign (freeTimes m ds) d := by
  simp [freeTimes]

include hm

theorem length_freeTimes : (freeTimes m ds).length = m := by
  induction ds using List.reverseRecOn with
  | nil => simp [freeTimes]
  | append_singleton ds d ih =>
    have hne : freeTimes m ds ≠ [] := fun h => by simp [h] at ih; omega
    rw [freeTimes_concat, length_assign hne, ih]

theorem freeTimes_ne_nil : freeTimes m ds ≠ [] := by
  intro h
  have := length_freeTimes hm ds
  rw [h, List.length_nil] at this
  omega

theorem sum_freeTimes : (freeTimes m ds).sum = ds.sum := by
  induction ds using List.reverseRecOn with
  | nil => simp [freeTimes]
  | append_singleton ds d ih =>
    rw [freeTimes_concat, sum_assign (freeTimes_ne_nil hm ds), ih, List.sum_append,
      List.sum_singleton]

theorem largest_le_makespan : largest ds ≤ makespan m ds := by
  induction ds using List.reverseRecOn with
  | nil => exact Nat.zero_le _
  | append_singleton ds d ih =>
    obtain ⟨hmono, hjob⟩ := le_largest_assign (freeTimes_ne_nil hm ds) d
    rw [makespan] at ih
    rw [makespan, freeTimes_concat]
    refine largest_le_iff.2 fun s hs => ?_
    rcases List.mem_append.1 hs with hs | hs
    · exact (le_largest hs).trans (ih.trans hmono)
    · exact List.mem_singleton.1 hs ▸ hjob

theorem sum_le_mul_makespan : ds.sum ≤ m * makespan m ds := by
  have hsum := List.sum_le_card_nsmul (freeTimes m ds) (makespan m ds) fun t ht => le_largest ht
  rwa [sum_freeTimes hm, length_freeTimes hm, Nat.nsmul_eq_mul] at hsum

/-- A worker is free no later than all together would be, had they started its last job alone and
shared the rest. -/
theorem mul_le_of_mem_freeTimes {t : Nat} (ht : t ∈ freeTimes m ds) :
    m * t ≤ ds.sum + (m - 1) * largest ds := by
  induction ds using List.reverseRecOn generalizing t with
  | nil =>
    have hzero : t = 0 := List.eq_of_mem_replicate ht
    rw [hzero]
    omega
  | append_singleton ds d ih =>
    have hlargest : largest ds ≤ largest (ds ++ [d]) :=
      largest_le_iff.2 fun s hs => le_largest (List.mem_append_left _ hs)
    have hd : d ≤ largest (ds ++ [d]) :=
      le_largest (List.mem_append_right _ (List.mem_singleton_self d))
    obtain ⟨first, hfirst, hle⟩ := exists_first (freeTimes_ne_nil hm ds)
    rw [freeTimes_concat, assign_eq hfirst hle] at ht
    rw [List.sum_append, List.sum_singleton]
    rcases List.mem_cons.1 ht with rfl | ht
    · -- The first to be free is so no later than the average.
      have haverage := List.card_nsmul_le_sum (freeTimes m ds) first hle
      rw [sum_freeTimes hm, length_freeTimes hm, Nat.nsmul_eq_mul] at haverage
      have hmd : (m - 1) * d ≤ (m - 1) * largest (ds ++ [d]) := Nat.mul_le_mul_left _ hd
      have hsplit : m * d = d + (m - 1) * d := by
        obtain ⟨k, rfl⟩ : ∃ k, m = k + 1 := ⟨m - 1, by omega⟩
        rw [Nat.add_sub_cancel, Nat.succ_mul, Nat.add_comm]
      rw [Nat.mul_add]
      omega
    · have hold := ih (List.mem_of_mem_erase ht)
      have hmul : (m - 1) * largest ds ≤ (m - 1) * largest (ds ++ [d]) :=
        Nat.mul_le_mul_left _ hlargest
      omega

theorem mul_makespan_le : m * makespan m ds ≤ ds.sum + (m - 1) * largest ds :=
  mul_le_of_mem_freeTimes hm ds (largest_mem (freeTimes_ne_nil hm ds))

omit hm in
/-- One worker takes on one job after the other. -/
theorem makespan_one : makespan 1 ds = ds.sum := by
  have hlength := length_freeTimes (Nat.le_refl 1) ds
  obtain ⟨t, ht⟩ := List.length_eq_one_iff.1 hlength
  have hsum := sum_freeTimes (Nat.le_refl 1) ds
  rw [ht, List.sum_singleton] at hsum
  rw [makespan, ht, ← hsum]
  simp [largest]

omit hm in
/-- With a worker for each job all start at once. -/
theorem perm_freeTimes (h : ds.length ≤ m) :
    (freeTimes m ds).Perm (ds ++ List.replicate (m - ds.length) 0) := by
  induction ds using List.reverseRecOn with
  | nil => simp [freeTimes]
  | append_singleton ds d ih =>
    rw [List.length_append, List.length_singleton] at h
    have hsplit : List.replicate (m - ds.length) 0 =
        0 :: List.replicate (m - (ds ++ [d]).length) 0 := by
      rw [List.length_append, List.length_singleton, ← List.replicate_succ]
      congr 1
      omega
    have hperm := ih (by omega)
    rw [hsplit] at hperm
    have hzero : 0 ∈ freeTimes m ds :=
      hperm.mem_iff.2 (List.mem_append_right _ List.mem_cons_self)
    have hrest := (hperm.trans List.perm_middle).erase 0
    rw [List.erase_cons_head] at hrest
    rw [freeTimes_concat, assign_eq hzero fun s _ => Nat.zero_le s, Nat.zero_add, List.append_assoc]
    exact (hrest.cons d).trans List.perm_middle.symm

omit hm in
theorem makespan_of_length_le (h : ds.length ≤ m) : makespan m ds = largest ds := by
  rw [makespan, largest_perm (perm_freeTimes ds h)]
  refine Nat.le_antisymm (largest_le_iff.2 fun s hs => ?_) (largest_le_iff.2 fun s hs => ?_)
  · rcases List.mem_append.1 hs with hs | hs
    · exact le_largest hs
    · exact List.eq_of_mem_replicate hs ▸ Nat.zero_le _
  · exact le_largest (List.mem_append_left _ hs)

/-- The makespan lies between the two bounds that no schedule can beat and those of a schedule that
leaves no worker idle. -/
theorem makespan_bounds :
    max (largest ds : ℚ) (ds.sum / m) ≤ makespan m ds ∧
      (makespan m ds : ℚ) ≤ ds.sum / m + (1 - 1 / m) * largest ds := by
  have hpos : (0 : ℚ) < m := by exact_mod_cast hm
  constructor
  · refine max_le (by exact_mod_cast largest_le_makespan hm ds) ?_
    rw [div_le_iff₀ hpos, mul_comm]
    exact_mod_cast sum_le_mul_makespan hm ds
  · have hupper : (m : ℚ) * makespan m ds ≤ ds.sum + ((m : ℚ) - 1) * largest ds := by
      have hnat : ((m * makespan m ds : ℕ) : ℚ) ≤
          ((ds.sum + (m - 1) * largest ds : ℕ) : ℚ) := by
        exact_mod_cast mul_makespan_le hm ds
      rwa [Nat.cast_mul, Nat.cast_add, Nat.cast_mul, Nat.cast_sub hm, Nat.cast_one] at hnat
    have hform : (ds.sum : ℚ) / m + (1 - 1 / m) * largest ds =
        (ds.sum + ((m : ℚ) - 1) * largest ds) / m := by
      field_simp
    rw [hform, le_div_iff₀ hpos, mul_comm]
    exact hupper

end

end WindowTally.Schedule
