import WindowTally.Proofs.Coupling

/-!
# Exact counts

What a run emits adds up to what came in on time. `onTime` says which occurrences of
a word count for a window, without any state: those in the records whose time lies
in the window, each unless an operation before it closed the window. `exact_counts`
says that the counts of a run that ends with a drain sum to exactly that, for every
word and every window.

The induction is on the run. What it carries for one pair is that the counts still
to come are those in the tally and those on time in the rest of the run
(`amount_outputs_drain`), or none once the window is closed.
-/
namespace WindowTally

open WordCount (amount amount_append amount_eq_zero amount_filter amount_le amount_perm)

namespace Operation

/-- Whether the operation closes a window, on times that are not bounded. -/
def Closes (grace allowance : Millis) (w : Window) : Operation → Prop
  | .record r => w.stop.toInt + grace.toInt ≤ r.timestamp.toInt
  | .flush now => w.stop.toInt + allowance.toInt ≤ now.toInt
  | .drain => True

instance (grace allowance : Millis) (w : Window) : DecidablePred (Closes grace allowance w)
  | .record r => inferInstanceAs (Decidable (w.stop.toInt + grace.toInt ≤ r.timestamp.toInt))
  | .flush now => inferInstanceAs (Decidable (w.stop.toInt + allowance.toInt ≤ now.toInt))
  | .drain => inferInstanceAs (Decidable True)

/-- The words that the operation brings: those of its record, if that is text. -/
def words : Operation → List String
  | .record r => (Text.wordsOfBytes r.payload).getD []
  | .flush _ => []
  | .drain => []

/-- How often the operation brings a word at a time that lies in a window. -/
def occurrences (h : Hopping) (word : String) (w : Window) (op : Operation) : Nat :=
  match op with
  | .record r => if w ∈ h.windowsAt r.timestamp then op.words.count word else 0
  | .flush _ => 0
  | .drain => 0

theorem occurrences_le_length (h : Hopping) (word : String) (w : Window) (op : Operation) :
    op.occurrences h word w ≤ op.words.length := by
  cases op with
  | record r =>
    simp only [occurrences]
    split
    · exact List.count_le_length
    · exact Nat.zero_le _
  | flush now => exact Nat.zero_le _
  | drain => exact Nat.zero_le _

/-- A record closes no window that its time lies in. -/
theorem occurrences_of_closes {grace allowance : Millis} (hgrace : 0 ≤ grace.toInt) {w : Window}
    {op : Operation} (hop : op.Closes grace allowance w) (h : Hopping) (word : String) :
    op.occurrences h word w = 0 := by
  cases op with
  | record r =>
    refine if_neg fun hw => ?_
    have hbefore := Int64.lt_iff_toInt_lt.1 (Hopping.contains_of_mem hw).2
    simp only [Closes] at hop
    omega
  | flush now => rfl
  | drain => rfl

end Operation

/-! ## What is on time -/

section
variable (grace allowance : Millis) (h : Hopping) (word : String) (w : Window)

/-- How often a word comes on time for a window: its occurrences in the records whose time lies in
the window, leaving out those that come after an operation that closes the window. -/
def onTime (ops : List Operation) : Nat :=
  ∑ j : Fin ops.length,
    if ∃ i < j, (ops.get i).Closes grace allowance w then 0 else (ops.get j).occurrences h word w

@[simp]
theorem onTime_nil : onTime grace allowance h word w [] = 0 := rfl

theorem onTime_cons (op : Operation) (ops : List Operation) :
    onTime grace allowance h word w (op :: ops) = op.occurrences h word w +
      if op.Closes grace allowance w then 0 else onTime grace allowance h word w ops := by
  have hfirst : ∀ j : Fin ops.length,
      (∃ i < j.succ, ((op :: ops).get i).Closes grace allowance w) ↔
        op.Closes grace allowance w ∨ ∃ i < j, (ops.get i).Closes grace allowance w := by
    intro j
    rw [Fin.exists_fin_succ]
    simp
  unfold onTime
  simp only [List.length_cons, Fin.sum_univ_succ, hfirst]
  congr 1
  · simp
  · by_cases hop : op.Closes grace allowance w
    · simp [hop]
    · simp [hop]

theorem onTime_le_words (ops : List Operation) :
    onTime grace allowance h word w ops ≤ (ops.map fun op => op.words.length).sum := by
  induction ops with
  | nil => exact Nat.le_refl _
  | cons op ops ih =>
    have hop := op.occurrences_le_length h word w
    rw [onTime_cons, List.map_cons, List.sum_cons]
    split <;> omega

/-- Nothing comes on time for a window that no time lies in. -/
theorem onTime_of_not_mem {w : Window} (hw : ∀ t, w ∉ h.windowsAt t) (ops : List Operation) :
    onTime grace allowance h word w ops = 0 := by
  have hnone : ∀ op : Operation, op.occurrences h word w = 0 := by
    intro op
    cases op with
    | record r => exact if_neg (hw r.timestamp)
    | flush now => rfl
    | drain => rfl
  simp [onTime, hnone]

end

namespace Aggregator

/-! ## One operation -/

section
variable {a : Aggregator} (h : a.Coupled) (op : Operation)
include h

theorem closes_iff {w : Window} (hw : w.start < w.stop) :
    (a.operate op).2.frontier.isClosed w = true ↔
      a.frontier.isClosed w = true ∨ op.Closes a.frontier.grace a.frontier.allowance w := by
  have henrolled := sound_enrolled h.sound op
  rw [frontier_operate]
  cases op with
  | record r =>
    have hevent := Frontier.isClosed_onEvent henrolled.caughtUp r.timestamp hw
    rw [isClosed_enrolled] at hevent
    rw [← Frontier.grace_enroll (f := a.frontier) (t := r.timestamp)]
    exact hevent
  | flush now => exact Frontier.isClosed_onFlush now hw
  | drain =>
    have hall := Frontier.isClosed_closeAll (f := a.enrolled .drain) w
    exact ⟨fun _ => .inr trivial, fun _ => hall⟩

theorem grace_operate : (a.operate op).2.frontier.grace = a.frontier.grace := by
  rw [frontier_operate, (closing_closed h.sound op).grace]
  cases op with
  | record r => exact Frontier.grace_enroll
  | flush now => rfl
  | drain => rfl

theorem allowance_operate : (a.operate op).2.frontier.allowance = a.frontier.allowance := by
  rw [frontier_operate, (closing_closed h.sound op).allowance]
  cases op with
  | record r => exact Frontier.allowance_enroll
  | flush now => rfl
  | drain => rfl

variable (word : String) {w : Window}

omit op in
theorem amount_of_isClosed (hw : a.frontier.isClosed w = true) :
    amount word w a.tally.entries = 0 := by
  refine amount_eq_zero fun c hc hpair => ?_
  rw [← hpair.2, h.not_isClosed hc] at hw
  cases hw

/-- What an operation emits of a window is all there was, or nothing if the window stays open. -/
theorem amount_emitted : amount word w (a.operate op).1 =
    if (a.operate op).2.frontier.isClosed w then amount word w a.tally.entries else 0 := by
  rw [amount_perm (perm_operate h op)]
  split
  · next hclosed => exact amount_filter hclosed _
  · next hopen =>
    refine amount_eq_zero fun c hc hpair => hopen ?_
    rw [← hpair.2]
    exact (List.mem_filter.1 hc).2

/-- A window that stays open gains the occurrences that the operation brings. -/
theorem amount_left (hopen : (a.operate op).2.frontier.isClosed w = false) :
    amount word w (a.operate op).2.tally.entries =
      min (amount word w a.tally.entries + op.occurrences a.windows word w) (2 ^ 64 - 1) := by
  have hbefore : a.frontier.isClosed w = false := by
    rw [← Bool.not_eq_true] at hopen ⊢
    exact fun hclosed => hopen (isClosed_operate_mono h.sound op hclosed)
  have hkept : amount word w (a.operate op).2.tally.entries =
      amount word w (a.countedTally op).entries := by
    rw [entries_operate]
    refine amount_filter (p := fun v => !decide (v ∈ (a.closed op).1)) ?_ _
    rw [frontier_operate] at hopen
    simp [(closing_closed h.sound op).mem_closed, hopen]
  have hle : amount word w a.tally.entries ≤ 2 ^ 64 - 1 := amount_le a.tally.ordered
  rw [hkept]
  cases op with
  | record r =>
    have hnodup : (a.frontier.enroll r.timestamp
        (a.windows.windowsAt r.timestamp)).1.opened.Nodup :=
      (Hopping.nodup_windowsAt a.windows r.timestamp).filter _
    simp only [countedTally, Tally.amount_countWords hnodup, Frontier.mem_opened, hbefore, and_true,
      Operation.occurrences, Operation.words]
    split
    · rfl
    · omega
  | flush now =>
    simp only [countedTally, Operation.occurrences]
    omega
  | drain =>
    simp only [countedTally, Operation.occurrences]
    omega

/-- An operation leaves of a window nothing once it is closed, and otherwise what there was and what
it brings. -/
theorem amount_operate : amount word w (a.operate op).2.tally.entries =
    if (a.operate op).2.frontier.isClosed w then 0
    else min (amount word w a.tally.entries + op.occurrences a.windows word w) (2 ^ 64 - 1) := by
  split
  · next hclosed => exact amount_of_isClosed (coupled_operate h op) word hclosed
  · next hopen => exact amount_left h op word (Bool.not_eq_true _ ▸ hopen)

end

/-! ## Runs -/

section
variable {a : Aggregator} (h : a.Coupled)
include h

theorem entries_drain : (a.operate .drain).2.tally.entries = [] := by
  refine List.eq_nil_iff_forall_not_mem.2 fun c hc => ?_
  have hopen := (coupled_operate h .drain).not_isClosed hc
  rw [frontier_operate] at hopen
  have hall := Frontier.isClosed_closeAll (f := a.enrolled .drain) c.window
  exact Bool.false_ne_true (hopen.symm.trans hall)

/-- Until its window is closed, a run that ends with a drain has still to emit of a word what the
tally holds and what comes on time. -/
theorem amount_outputs_drain (word : String) {w : Window} (hw : w.start < w.stop)
    (ops : List Operation) :
    amount word w (a.outputs (ops ++ [.drain])).flatten =
      if a.frontier.isClosed w then 0
      else min (amount word w a.tally.entries +
        onTime a.frontier.grace a.frontier.allowance a.windows word w ops) (2 ^ 64 - 1) := by
  induction ops generalizing a with
  | nil =>
    have hall : (a.operate .drain).2.frontier.isClosed w = true :=
      (closes_iff h .drain hw).2 (.inr trivial)
    have hle : amount word w a.tally.entries ≤ 2 ^ 64 - 1 := amount_le a.tally.ordered
    have hemitted := amount_emitted h .drain word (w := w)
    rw [if_pos hall] at hemitted
    simp only [List.nil_append, outputs_cons, outputs, List.flatten_cons, List.flatten_nil,
      List.append_nil, onTime_nil, hemitted]
    split
    · next hclosed => exact amount_of_isClosed h word hclosed
    · omega
  | cons op ops ih =>
    have hrest := ih (coupled_operate h op)
    have hle : amount word w a.tally.entries ≤ 2 ^ 64 - 1 := amount_le a.tally.ordered
    rw [grace_operate h op, allowance_operate h op, windows_operate] at hrest
    rw [List.cons_append, outputs_cons, List.flatten_cons, amount_append, hrest,
      amount_emitted h op, onTime_cons]
    by_cases hclosed : a.frontier.isClosed w = true
    · have hafter := isClosed_operate_mono h.sound op hclosed
      rw [if_pos hafter, if_pos hafter, if_pos hclosed, amount_of_isClosed h word hclosed]
    · by_cases hop : op.Closes a.frontier.grace a.frontier.allowance w
      · have hafter := (closes_iff h op hw).2 (.inr hop)
        rw [if_pos hafter, if_pos hafter, if_neg hclosed, if_pos hop,
          Operation.occurrences_of_closes h.sound.grace_nonneg hop]
        omega
      · have hafter : ¬ (a.operate op).2.frontier.isClosed w = true := by
          rw [closes_iff h op hw]
          exact fun hor => hor.elim hclosed hop
        rw [if_neg hafter, if_neg hafter, if_neg hclosed, if_neg hop,
          amount_left h op word (Bool.not_eq_true _ ▸ hafter)]
        omega

theorem mem_outputs {out : List WordCount} {ops : List Operation} (hout : out ∈ a.outputs ops)
    {c : WordCount} (hc : c ∈ out) : c.window.start < c.window.stop ∧ 0 < c.count.toNat := by
  induction ops generalizing a with
  | nil => cases hout
  | cons op ops ih =>
    rw [outputs_cons, List.mem_cons] at hout
    rcases hout with rfl | hout
    · have hentry := ((mem_operate h op).1 hc).1
      exact ⟨h.sound.spans _ (h.pending c hentry), h.positive c hentry⟩
    · exact ih (coupled_operate h op) hout

end

/-- Valid settings have no negative grace and no negative allowance, so the frontier starts with
those of the settings. -/
theorem frontier_ofSettings {s : ProcessingSettings} {a : Aggregator} (ha : ofSettings s = .ok a) :
    a.frontier.grace = s.grace ∧ a.frontier.allowance = s.allowance ∧
      a.frontier.closedThrough = Millis.least ∧ a.tally.entries = [] := by
  have hvalid := valid_of_ofSettings ha
  obtain ⟨windows, -, -, rfl⟩ := ofSettings_eq_ok ha
  have hmax : ∀ m : Millis, 0 ≤ m → max m 0 = m := by
    intro m hm
    rw [Int64.le_iff_toInt_le] at hm
    rw [← Int64.toInt_inj, Millis.toInt_max]
    exact max_eq_left hm
  exact ⟨hmax _ hvalid.grace_nonneg, hmax _ hvalid.allowance_nonneg, rfl, rfl⟩

/-- The amounts that a run from valid settings emits, once it ends with a drain, are those that come
on time, up to the largest count. -/
theorem amount_outputs_ofSettings {s : ProcessingSettings} {a : Aggregator}
    (ha : ofSettings s = .ok a) (ops : List Operation) (word : String) (w : Window) :
    amount word w (a.outputs (ops ++ [.drain])).flatten =
      min (onTime s.grace s.allowance a.windows word w ops) (2 ^ 64 - 1) := by
  have hstart := coupled_ofSettings ha
  obtain ⟨hgrace, hallowance, hthrough, hentries⟩ := frontier_ofSettings ha
  by_cases hw : w.start < w.stop
  · have hopen : ¬ a.frontier.isClosed w = true := by
      rw [Frontier.isClosed_iff, hthrough]
      exact Int64.not_le.2 (Window.least_lt_stop hw)
    rw [amount_outputs_drain hstart word hw, if_neg hopen, hentries, hgrace, hallowance,
      WordCount.amount_nil, Nat.zero_add]
  · -- Such a window contains no time, and no entry is ever made for it.
    rw [onTime_of_not_mem s.grace s.allowance a.windows word
      fun t ht => hw (Hopping.start_lt_stop_of_mem ht)]
    refine amount_eq_zero fun c hc hpair => hw ?_
    obtain ⟨out, hout, hc⟩ := List.mem_flatten.1 hc
    exact hpair.2 ▸ (mem_outputs hstart hout hc).1

/-- The counts that a run from valid settings emits, once it ends with a drain, sum for each word
and window to the occurrences that come on time. A pair without such an occurrence is not emitted,
and nothing is left in the tally. -/
theorem exact_counts {s : ProcessingSettings} {a : Aggregator} (ha : ofSettings s = .ok a)
    (ops : List Operation) (hn : (ops.map fun op => op.words.length).sum < 2 ^ 64) :
    (∀ word w, amount word w (a.outputs (ops ++ [.drain])).flatten =
      onTime s.grace s.allowance a.windows word w ops) ∧
    (∀ c ∈ (a.outputs (ops ++ [.drain])).flatten,
      onTime s.grace s.allowance a.windows c.word c.window ops ≠ 0) ∧
    (a.after (ops ++ [.drain])).tally.entries = [] := by
  have hstart := coupled_ofSettings ha
  obtain ⟨hgrace, hallowance, hthrough, hentries⟩ := frontier_ofSettings ha
  have hamount : ∀ word w, amount word w (a.outputs (ops ++ [.drain])).flatten =
      onTime s.grace s.allowance a.windows word w ops := by
    intro word w
    by_cases hw : w.start < w.stop
    · have hopen : ¬ a.frontier.isClosed w = true := by
        rw [Frontier.isClosed_iff, hthrough]
        exact Int64.not_le.2 (Window.least_lt_stop hw)
      have htokens := onTime_le_words s.grace s.allowance a.windows word w ops
      rw [amount_outputs_drain hstart word hw, if_neg hopen, hentries, hgrace, hallowance,
        WordCount.amount_nil]
      omega
    · -- Such a window contains no time, and no entry is ever made for it.
      rw [onTime_of_not_mem s.grace s.allowance a.windows word
        fun t ht => hw (Hopping.start_lt_stop_of_mem ht)]
      refine amount_eq_zero fun c hc hpair => hw ?_
      obtain ⟨out, hout, hc⟩ := List.mem_flatten.1 hc
      exact hpair.2 ▸ (mem_outputs hstart hout hc).1
  refine ⟨hamount, fun c hc hzero => ?_, ?_⟩
  · obtain ⟨out, hout, hcout⟩ := List.mem_flatten.1 hc
    have hpos := (mem_outputs hstart hout hcout).2
    have hle := WordCount.le_amount hc
    rw [hamount, hzero] at hle
    omega
  · rw [after_append]
    exact entries_drain (coupled_after hstart ops)

/-- The theorem at the default settings: the second record comes after the window of the first has
closed, and the last one opens the next window. -/
theorem exact_counts_at_default_settings : ∃ a, ofSettings {} = .ok a ∧
    amount "a" ⟨0, 5000⟩ (a.outputs [.record ⟨0, [97, 32, 97], none⟩, .flush 5000,
      .record ⟨1, [97], none⟩, .record ⟨5000, [97], none⟩, .drain]).flatten = 2 := by
  refine ⟨_, rfl, ?_⟩
  refine ((exact_counts (s := {}) rfl [.record ⟨0, [97, 32, 97], none⟩, .flush 5000,
    .record ⟨1, [97], none⟩, .record ⟨5000, [97], none⟩] (by decide +kernel)).1 _ _).trans ?_
  decide +kernel

end Aggregator

end WindowTally
