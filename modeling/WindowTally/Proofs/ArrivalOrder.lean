import Mathlib.Data.List.Dedup
import Mathlib.Data.List.ProdSigma
import WindowTally.Proofs.ExactCounts
import WindowTally.Proofs.WindowStarts

/-!
# Records that come in another order

`Hopping.groupBy` counts records all at once, without windows that close: it groups
the occurrences of words by word and window and lists the groups in the order of
emission. A run over records none of which lies further behind an earlier one than
the grace period drops nothing and emits exactly this list (`emitted_eq_groupBy`),
so what it emits does not depend on the order in which they come. It comes to nothing
only if no room can be made for the windows of a time.

A window that a record lies in cannot have closed before the record: it ends after
the record's time, and what closes it lies a grace period past its end. And a list in
the order of emission is known from its amounts (`WordCount.eq_of_amount_eq`), which
for a run are those that come on time.
-/
namespace WindowTally

open WordCount (amount amount_cons amount_eq_zero amount_nil amount_perm)

/-! ## Lists in the order of emission -/

namespace WordCount

instance : DecidableRel EmitsBefore := fun a b =>
  inferInstanceAs
    (Decidable (a.window.ClosesBefore b.window ∨ a.window = b.window ∧ a.word < b.word))

/-- Two word counts of which neither is emitted before the other are of one pair. -/
theorem eq_of_not_emitsBefore {a b : WordCount} (hab : ¬ a.EmitsBefore b)
    (hba : ¬ b.EmitsBefore a) : a.word = b.word ∧ a.window = b.window := by
  simp only [EmitsBefore, not_or, not_and] at hab hba
  have hw := Window.eq_of_not_closesBefore _ _ hab.1 hba.1
  exact ⟨String.le_antisymm (hba.2 hw.symm) (hab.2 hw), hw⟩

/-- A list in the order of emission that counts no pair at zero is known from its amounts. -/
theorem eq_of_amount_eq {cs ds : List WordCount} (hcs : cs.Pairwise EmitsBefore)
    (hds : ds.Pairwise EmitsBefore) (hcpos : ∀ c ∈ cs, 0 < c.count.toNat)
    (hdpos : ∀ d ∈ ds, 0 < d.count.toNat)
    (h : ∀ word w, amount word w cs = amount word w ds) : cs = ds := by
  exact eq_of_perm hcs hds
    (perm_of_amount_eq (hcs.imp EmitsBefore.ne) (hds.imp EmitsBefore.ne) hcpos hdpos h)

end WordCount

/-! ## Counting all at once -/

namespace Hopping

/-- Every word of every record with every window of the record's time. -/
def pairs (h : Hopping) (rs : List Record) : List (String × Window) :=
  rs.flatMap fun r => (Text.wordsOfBytes r.payload).getD [] ×ˢ h.windowsAt r.timestamp

/-- How often each pair of a word and a window occurs in records, in the order of emission. Counts
stop at the largest one, as those of a tally do. -/
def groupBy (h : Hopping) (rs : List Record) : List WordCount :=
  ((h.pairs rs).dedup.map fun pair =>
      ⟨pair.1, UInt64.ofNat (min ((h.pairs rs).count pair) (2 ^ 64 - 1)), pair.2⟩).mergeSort
    fun a b => !decide (b.EmitsBefore a)

variable {h : Hopping} {rs : List Record}

theorem perm_groupBy : (h.groupBy rs).Perm ((h.pairs rs).dedup.map fun pair =>
    ⟨pair.1, UInt64.ofNat (min ((h.pairs rs).count pair) (2 ^ 64 - 1)), pair.2⟩) :=
  List.mergeSort_perm _ _

theorem pairwise_groupBy : (h.groupBy rs).Pairwise WordCount.EmitsBefore := by
  have hsorted : (h.groupBy rs).Pairwise fun a b => (!decide (b.EmitsBefore a)) = true := by
    refine List.pairwise_mergeSort (fun a b c hab hbc => ?_) (fun a b => ?_) _
    · simp only [Bool.not_eq_true', decide_eq_false_iff_not] at hab hbc ⊢
      -- Of three none of which is emitted before its predecessor, the last is not before the first.
      intro hca
      by_cases hba : a.EmitsBefore b
      · exact hbc (hca.trans hba)
      · obtain ⟨hword, hwindow⟩ := WordCount.eq_of_not_emitsBefore hba hab
        rw [WordCount.EmitsBefore, hword, hwindow] at hca
        exact hbc hca
    · by_cases hab : a.EmitsBefore b
      · have hba : ¬ b.EmitsBefore a := fun hba => (hab.trans hba).irrefl
        simp [hba]
      · simp [hab]
  have hpairs : (h.groupBy rs).Pairwise fun a b => (a.word, a.window) ≠ (b.word, b.window) := by
    refine (List.Perm.pairwise_iff (fun hab => hab.symm) perm_groupBy).2 ?_
    rw [List.pairwise_map]
    exact (List.nodup_dedup _).imp fun hne heq => hne heq
  refine (hsorted.and hpairs).imp ?_
  rintro a b ⟨hba, hne⟩
  by_contra hab
  obtain ⟨hword, hwindow⟩ := WordCount.eq_of_not_emitsBefore hab (by simpa using hba)
  exact hne (Prod.ext hword hwindow)

theorem toNat_ofNat_min (n : Nat) :
    (UInt64.ofNat (min n (2 ^ 64 - 1))).toNat = min n (2 ^ 64 - 1) :=
  UInt64.toNat_ofNat_of_lt' (by rw [UInt64.size]; omega)

theorem count_pos_of_mem_groupBy {c : WordCount} (hc : c ∈ h.groupBy rs) : 0 < c.count.toNat := by
  obtain ⟨pair, hpair, rfl⟩ := List.mem_map.1 (perm_groupBy.mem_iff.1 hc)
  have := List.count_pos_iff.2 (List.mem_dedup.1 hpair)
  rw [toNat_ofNat_min]
  omega

/-- The amount of a pair in a list that holds one word count for each of several pairs. -/
theorem amount_map {ps : List (String × Window)} (hps : ps.Nodup) (n : String × Window → UInt64)
    (word : String) (w : Window) :
    amount word w (ps.map fun pair => ⟨pair.1, n pair, pair.2⟩) =
      if (word, w) ∈ ps then (n (word, w)).toNat else 0 := by
  induction ps with
  | nil => rfl
  | cons pair ps ih =>
    obtain ⟨x, v⟩ := pair
    obtain ⟨hpair, hrest⟩ := List.nodup_cons.1 hps
    rw [List.map_cons, amount_cons, ih hrest]
    by_cases heq : x = word ∧ v = w
    · obtain ⟨rfl, rfl⟩ := heq
      simp [hpair]
    · have hne : (word, w) ≠ (x, v) := by
        rintro ⟨⟩
        exact heq ⟨rfl, rfl⟩
      simp [heq, hne]

theorem amount_groupBy (word : String) (w : Window) :
    amount word w (h.groupBy rs) = min ((h.pairs rs).count (word, w)) (2 ^ 64 - 1) := by
  rw [amount_perm perm_groupBy, amount_map (List.nodup_dedup _), toNat_ofNat_min]
  split
  · rfl
  · next hnone =>
    rw [List.mem_dedup] at hnone
    rw [List.count_eq_zero_of_not_mem hnone]
    rfl

theorem count_product (words : List String) {ws : List Window} (hws : ws.Nodup) (word : String)
    (w : Window) : (words ×ˢ ws).count (word, w) = if w ∈ ws then words.count word else 0 := by
  induction words with
  | nil => simp
  | cons x words ih =>
    have hfirst : (ws.map (Prod.mk x)).count (word, w) = if x = word ∧ w ∈ ws then 1 else 0 := by
      by_cases hx : x = word
      · subst hx
        rw [List.count_map_of_injective _ _ (Prod.mk_right_injective x), hws.count]
        simp
      · rw [List.count_eq_zero_of_not_mem]
        · simp [hx]
        · simpa using fun _ => hx
    rw [List.product_cons, List.count_append, hfirst, ih, List.count_cons]
    by_cases hw : w ∈ ws <;> by_cases hx : x = word <;> simp [hw, hx, Nat.add_comm]

/-- A pair occurs as often as the records bring its word at a time in its window. -/
theorem count_pairs (word : String) (w : Window) : (h.pairs rs).count (word, w) =
    (rs.map fun r => (Operation.record r).occurrences h word w).sum := by
  rw [pairs, List.count_flatMap]
  congr 1
  refine List.map_congr_left fun r _ => ?_
  exact count_product _ (h.nodup_windowsAt _) word w

theorem pairs_perm {rs' : List Record} (hperm : rs'.Perm rs) : (h.pairs rs').Perm (h.pairs rs) :=
  hperm.flatMap_right _

/-- Counted all at once, records come in no order. -/
theorem groupBy_perm {rs' : List Record} (hperm : rs'.Perm rs) : h.groupBy rs' = h.groupBy rs := by
  refine WordCount.eq_of_amount_eq pairwise_groupBy pairwise_groupBy
    (fun _ => count_pos_of_mem_groupBy) (fun _ => count_pos_of_mem_groupBy) fun word w => ?_
  rw [amount_groupBy, amount_groupBy, (pairs_perm hperm).count_eq]

end Hopping

/-! ## Records within the grace period of one another -/

/-- No record lies further behind an earlier one than the grace period. -/
def WithinGrace (grace : Millis) (rs : List Record) : Prop :=
  rs.Pairwise fun r r' => r.timestamp.toInt - grace.toInt ≤ r'.timestamp.toInt

instance (grace : Millis) : DecidablePred (WithinGrace grace) := fun rs =>
  inferInstanceAs
    (Decidable (rs.Pairwise fun r r' => r.timestamp.toInt - grace.toInt ≤ r'.timestamp.toInt))

/-- A record does not close the windows of one that comes after it within the grace period. -/
theorem not_closes_of_mem {grace allowance : Millis} {h : Hopping} {r r' : Record} {w : Window}
    (hle : r.timestamp.toInt - grace.toInt ≤ r'.timestamp.toInt)
    (hw : w ∈ h.windowsAt r'.timestamp) : ¬ (Operation.record r).Closes grace allowance w := by
  have hbefore := Int64.lt_iff_toInt_lt.1 (Hopping.contains_of_mem hw).2
  simp only [Operation.Closes]
  omega

/-- Within the grace period all that comes is on time. -/
theorem onTime_of_withinGrace {grace : Millis} (allowance : Millis) (h : Hopping) (word : String)
    (w : Window) {rs : List Record} (hrs : WithinGrace grace rs) :
    onTime grace allowance h word w (rs.map .record) = (h.pairs rs).count (word, w) := by
  rw [Hopping.count_pairs]
  induction rs with
  | nil => rfl
  | cons r rs ih =>
    obtain ⟨hr, hrest⟩ := List.pairwise_cons.1 hrs
    rw [List.map_cons, onTime_cons, ih hrest, List.map_cons, List.sum_cons]
    split
    · next hcloses =>
      -- What is closed now no later record lies in.
      have hnone : (rs.map fun r' => (Operation.record r').occurrences h word w).sum = 0 := by
        refine List.sum_eq_zero fun n hn => ?_
        obtain ⟨r', hr', rfl⟩ := List.mem_map.1 hn
        exact if_neg fun hw => not_closes_of_mem (hr r' hr') hw hcloses
      rw [hnone]
    · rfl

namespace Aggregator

section
variable {a : Aggregator} (h : a.Coupled)
include h

/-- Within the grace period no word is dropped, if every record lies in a window and none of these
is closed at the start. -/
theorem lateDropped_of_withinGrace {rs : List Record} (hrs : WithinGrace a.frontier.grace rs)
    (hopen : ∀ r ∈ rs, a.windows.windowsAt r.timestamp ≠ [] ∧
      ∀ w ∈ a.windows.windowsAt r.timestamp, a.frontier.isClosed w = false) :
    (a.after (rs.map .record)).stats.lateDropped = a.stats.lateDropped := by
  induction rs generalizing a with
  | nil => rfl
  | cons r rs ih =>
    obtain ⟨hr, hrest⟩ := List.pairwise_cons.1 hrs
    have hkept : (a.operate (.record r)).2.stats.lateDropped = a.stats.lateDropped := by
      obtain ⟨hsome, hall⟩ := hopen r List.mem_cons_self
      obtain ⟨w, hw⟩ := List.exists_mem_of_ne_nil _ hsome
      have hopened := List.ne_nil_of_mem
        (Frontier.mem_opened (t := r.timestamp).2 ⟨hw, hall w hw⟩)
      rw [lateDropped_operate, droppedWords, if_neg (by simpa using hopened)]
      exact UInt64.add_zero _
    have hafter := ih (a := (a.operate (.record r)).2) (coupled_operate h _)
      (by rw [grace_operate h]; exact hrest) fun r' hr' => ?_
    · exact hafter.trans hkept
    · rw [windows_operate]
      obtain ⟨hsome, hall⟩ := hopen r' (List.mem_cons_of_mem _ hr')
      refine ⟨hsome, fun w hw => ?_⟩
      rw [← Bool.not_eq_true, closes_iff h _ (Hopping.start_lt_stop_of_mem hw), hall w hw]
      exact fun hor => hor.elim Bool.false_ne_true (not_closes_of_mem (hr r' hr') hw)

end

theorem length_ofSettings {s : ProcessingSettings} {a : Aggregator} (ha : ofSettings s = .ok a) :
    a.windows.length = s.windowLength := by
  obtain ⟨windows, hwindows, -, rfl⟩ := ofSettings_eq_ok ha
  unfold ProcessingSettings.windows at hwindows
  cases hmake : Hopping.make s.windowLength s.advance with
  | error fault =>
    rw [hmake] at hwindows
    cases hwindows
  | ok h =>
    rw [hmake] at hwindows
    cases hwindows
    exact (Hopping.eq_of_make hmake).1

section
variable {s : ProcessingSettings} {a : Aggregator} (ha : ofSettings s = .ok a) {rs : List Record}
  (hrs : WithinGrace s.grace rs)
include ha hrs

/-- A run from valid settings drops no word of records that lie one window length inside the range,
each within the grace period of the earlier ones. -/
theorem lateDropped_drain
    (hrange : ∀ r ∈ rs, -2 ^ 63 + s.windowLength.toInt ≤ r.timestamp.toInt ∧
      r.timestamp.toInt ≤ 2 ^ 63 - 1 - s.windowLength.toInt) :
    (a.after (rs.map .record ++ [.drain])).stats.lateDropped = 0 := by
  obtain ⟨hgrace, -, hthrough, -⟩ := frontier_ofSettings ha
  have hzero : a.stats.lateDropped = 0 := by
    obtain ⟨windows, -, -, rfl⟩ := ofSettings_eq_ok ha
    rfl
  have hopen : ∀ r ∈ rs, a.windows.windowsAt r.timestamp ≠ [] ∧
      ∀ w ∈ a.windows.windowsAt r.timestamp, a.frontier.isClosed w = false := by
    intro r hr
    obtain ⟨hlo, hhi⟩ := hrange r hr
    rw [← length_ofSettings ha] at hlo hhi
    refine ⟨Hopping.windowsAt_ne_nil hlo hhi, fun w hw => ?_⟩
    rw [← Bool.not_eq_true, Frontier.isClosed_iff, hthrough]
    exact Int64.not_le.2 (Window.least_lt_stop (Hopping.start_lt_stop_of_mem hw))
  rw [after_append]
  refine (lateDropped_operate _ .drain).trans ?_
  rw [lateDropped_of_withinGrace (coupled_ofSettings ha) (hgrace ▸ hrs) hopen, hzero]
  rfl

/-- What such a run emits is what counting the records all at once gives. -/
theorem outputs_drain :
    (a.outputs (rs.map .record ++ [.drain])).flatten = a.windows.groupBy rs := by
  have hstart := coupled_ofSettings ha
  refine WordCount.eq_of_amount_eq (pairwise_emitsBefore hstart _) Hopping.pairwise_groupBy
    (fun c hc => ?_) (fun _ => Hopping.count_pos_of_mem_groupBy) fun word w => ?_
  · obtain ⟨out, hout, hcout⟩ := List.mem_flatten.1 hc
    exact (mem_outputs hstart hout hcout).2
  · rw [amount_outputs_ofSettings ha, Hopping.amount_groupBy, onTime_of_withinGrace _ _ _ _ hrs]

end

/-- Records of which none lies further behind an earlier one than the grace period, each at least
one window length inside the range, are counted without a loss unless no room can be made for the
windows of one: no word is dropped, and what the run emits is what counting them all at once gives, in
the order of emission. Any other such order of the same records comes to the same. -/
theorem emitted_eq_groupBy {s : ProcessingSettings} {a : Aggregator} (ha : ofSettings s = .ok a)
    {rs : List Record}
    (hrange : ∀ r ∈ rs, -2 ^ 63 + s.windowLength.toInt ≤ r.timestamp.toInt ∧
      r.timestamp.toInt ≤ 2 ^ 63 - 1 - s.windowLength.toInt)
    (hrs : WithinGrace s.grace rs) :
    (a.run? (rs.map .record ++ [.drain]) = none ↔
      rs ≠ [] ∧ 2 ^ 63 - 1 < 16 * a.windows.maxWindows) ∧
    (∀ outs b, a.run? (rs.map .record ++ [.drain]) = some (outs, b) →
      b.stats.lateDropped = 0 ∧ outs.flatten = a.windows.groupBy rs) ∧
    (a.windows.groupBy rs).Pairwise WordCount.EmitsBefore ∧
    ∀ rs', rs'.Perm rs → WithinGrace s.grace rs' →
      (a.run? (rs'.map .record ++ [.drain])).map
          (fun (outs, b) => (outs.flatten, b.stats.lateDropped)) =
        (a.run? (rs.map .record ++ [.drain])).map
          (fun (outs, b) => (outs.flatten, b.stats.lateDropped)) := by
  refine ⟨run?_drain_eq_none_iff a rs, ?_, Hopping.pairwise_groupBy, ?_⟩
  · rintro outs b hrun
    obtain ⟨rfl, rfl⟩ := run?_eq_some hrun
    exact ⟨lateDropped_drain ha hrs hrange, outputs_drain ha hrs⟩
  · intro rs' hperm hrs'
    have hrange' : ∀ r ∈ rs', _ := fun r hr => hrange r (hperm.mem_iff.1 hr)
    have hboth : a.run? (rs'.map .record ++ [.drain]) = none ↔
        a.run? (rs.map .record ++ [.drain]) = none := by
      rw [run?_drain_eq_none_iff a rs', run?_drain_eq_none_iff a rs, ← List.isEmpty_eq_false_iff,
        hperm.isEmpty_eq, List.isEmpty_eq_false_iff]
    cases hrun' : a.run? (rs'.map .record ++ [.drain]) with
    | none => rw [hboth.1 hrun']
    | some run' =>
      obtain ⟨run, hrun⟩ := Option.ne_none_iff_exists'.1 (mt hboth.2 (by rw [hrun']; simp))
      obtain ⟨houts', hafter'⟩ := run?_eq_some hrun'
      obtain ⟨houts, hafter⟩ := run?_eq_some hrun
      simp only [hrun, Option.map_some, houts, hafter, houts', hafter', outputs_drain ha hrs',
        outputs_drain ha hrs, Hopping.groupBy_perm hperm, lateDropped_drain ha hrs' hrange',
        lateDropped_drain ha hrs hrange]

/-- The theorem for a record that comes as late as it may: just before the end of a window that an
event one later would have closed. -/
theorem emitted_eq_groupBy_at_the_latest : ∃ a outs b, ofSettings { grace := 2000 } = .ok a ∧
    WithinGrace 2000 [⟨6999, [98], none⟩, ⟨4999, [97], none⟩] ∧
    a.run? [.record ⟨6999, [98], none⟩, .record ⟨4999, [97], none⟩, .drain] = some (outs, b) ∧
    a.windows.groupBy [⟨6999, [98], none⟩, ⟨4999, [97], none⟩] =
      [⟨"a", 1, ⟨0, 5000⟩⟩, ⟨"b", 1, ⟨5000, 10000⟩⟩] ∧ b.stats.lateDropped = 0 := by
  obtain ⟨a, ha⟩ : ∃ a, ofSettings { grace := 2000 } = .ok a := ⟨_, rfl⟩
  have hrs : WithinGrace 2000 [⟨6999, [98], none⟩, ⟨4999, [97], none⟩] := by decide
  obtain ⟨hnone, hall, -⟩ := emitted_eq_groupBy ha (by decide) hrs
  have hroom : 16 * a.windows.maxWindows ≤ 2 ^ 63 - 1 := by
    cases ha
    decide +kernel
  obtain ⟨⟨outs, b⟩, hrun⟩ := Option.ne_none_iff_exists'.1
    (mt hnone.1 fun h => Nat.not_lt.2 hroom h.2)
  obtain ⟨hkept, hbatch⟩ := hall outs b hrun
  refine ⟨a, outs, b, ha, hrs, hrun, hbatch.symm.trans ?_, hkept⟩
  obtain ⟨rfl, -⟩ := run?_eq_some hrun
  cases ha
  decide +kernel

/-- Windows of the greatest length in steps of 1 cannot be listed: a run over one record without a
word, of which nothing would be counted, comes to nothing. -/
theorem no_room_for_empty_record : ∃ a,
    ofSettings { windowLength := Millis.greatest, advance := 1 } = .ok a ∧
    WithinGrace 0 [⟨0, [], none⟩] ∧
    -2 ^ 63 + Millis.greatest.toInt ≤ (0 : Millis).toInt ∧
    (0 : Millis).toInt ≤ 2 ^ 63 - 1 - Millis.greatest.toInt ∧
    a.windows.groupBy [⟨0, [], none⟩] = [] ∧
    a.run? [.record ⟨0, [], none⟩, .drain] = none := by
  obtain ⟨a, ha⟩ : ∃ a, ofSettings { windowLength := Millis.greatest, advance := 1 } = .ok a := ⟨_, rfl⟩
  have hwords : Text.wordsOfBytes [] = some [] := rfl
  refine ⟨a, ha, by decide, by decide, by decide, by simp [Hopping.groupBy, Hopping.pairs, hwords], ?_⟩
  refine (run?_drain_eq_none_iff a [⟨0, [], none⟩]).2 ⟨by simp, ?_⟩
  cases ha
  decide +kernel

end Aggregator

end WindowTally
