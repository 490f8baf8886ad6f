import Mathlib.Algebra.BigOperators.Fin
import WindowTally.Proofs.Ordered
import WindowTally.Proofs.Windows
import WindowTally.Tally

/-!
# Amounts

`WordCount.amount word w cs` is how much a list of word counts says about one word
in one window, as a sum over the unbounded naturals. A tally has one entry for a
pair at most, so its amounts are its counts; counting a word adds one to the
amounts of its own pairs, up to the largest count (`amount_countWords`), and taking
windows out splits the amounts in two.
-/
namespace WindowTally

/-! ## Word counts -/

namespace WordCount

/-- The total count of a word in a window. -/
def amount (word : String) (w : Window) (cs : List WordCount) : Nat :=
  ((cs.filter fun c => c.word = word ∧ c.window = w).map (·.count.toNat)).sum

variable {word : String} {w : Window}

@[simp]
theorem amount_nil : amount word w [] = 0 := rfl

theorem amount_cons (c : WordCount) (cs : List WordCount) : amount word w (c :: cs) =
    (if c.word = word ∧ c.window = w then c.count.toNat else 0) + amount word w cs := by
  unfold amount
  by_cases h : c.word = word ∧ c.window = w
  · simp [h]
  · simp [h]

@[simp]
theorem amount_append (cs ds : List WordCount) :
    amount word w (cs ++ ds) = amount word w cs + amount word w ds := by
  simp [amount]

theorem amount_eq_zero {cs : List WordCount} (h : ∀ c ∈ cs, ¬ (c.word = word ∧ c.window = w)) :
    amount word w cs = 0 := by
  induction cs with
  | nil => rfl
  | cons c cs ih =>
    rw [amount_cons, if_neg (h c List.mem_cons_self),
      ih fun d hd => h d (List.mem_cons_of_mem _ hd)]

/-- A selection that keeps the window keeps its amounts. -/
theorem amount_filter {p : Window → Bool} (h : p w = true) (cs : List WordCount) :
    amount word w (cs.filter fun c => p c.window) = amount word w cs := by
  unfold amount
  rw [List.filter_filter]
  congr 2
  apply List.filter_congr
  intro c _
  by_cases hc : c.word = word ∧ c.window = w
  · simp [hc, h]
  · simp [hc]

theorem le_amount {c : WordCount} {cs : List WordCount} (h : c ∈ cs) :
    c.count.toNat ≤ amount c.word c.window cs := by
  induction cs with
  | nil => cases h
  | cons d cs ih =>
    rw [amount_cons]
    rcases List.mem_cons.1 h with rfl | h
    · rw [if_pos ⟨rfl, rfl⟩]
      exact Nat.le_add_right _ _
    · exact Nat.le_trans (ih h) (Nat.le_add_left _ _)

theorem amount_perm {cs ds : List WordCount} (h : cs.Perm ds) :
    amount word w cs = amount word w ds :=
  ((h.filter _).map _).sum_nat

/-- Word counts of one pair are not listed one before the other. -/
theorem ListsBefore.ne {a b : WordCount} (h : a.ListsBefore b) :
    ¬ (a.word = b.word ∧ a.window = b.window) := by
  rintro ⟨hw, hv⟩
  rcases h with h | ⟨-, h⟩
  · exact Window.ListsBefore.irrefl (hv ▸ h)
  · exact String.lt_irrefl _ (hw ▸ h)

/-- Two word counts of which neither is listed before the other are of one pair. -/
theorem eq_of_not_listsBefore {a b : WordCount} (hab : ¬ a.ListsBefore b)
    (hba : ¬ b.ListsBefore a) : b.word = a.word ∧ b.window = a.window := by
  simp only [ListsBefore, not_or, not_and] at hab hba
  have hv := Window.eq_of_not_listsBefore hba.1 hab.1
  exact ⟨String.le_antisymm (hab.2 hv.symm) (hba.2 hv), hv⟩

/-- In a list in strict order each pair occurs once at most, so no amount passes the largest
count. -/
theorem amount_le {cs : List WordCount} (h : cs.Pairwise ListsBefore) :
    amount word w cs ≤ 2 ^ 64 - 1 := by
  induction cs with
  | nil => exact Nat.zero_le _
  | cons c cs ih =>
    obtain ⟨hc, hcs⟩ := List.pairwise_cons.1 h
    rw [amount_cons]
    split
    · next hpair =>
      have hrest : amount word w cs = 0 := amount_eq_zero fun d hd hd' =>
        (hc d hd).ne ⟨hpair.1.trans hd'.1.symm, hpair.2.trans hd'.2.symm⟩
      have := c.count.toNat_lt
      omega
    · have := ih hcs
      omega

section
variable {cs ds : List WordCount}

/-- Where no two word counts are of one pair, the amount of a pair is its count. -/
theorem amount_of_mem (h : cs.Pairwise fun a b => (a.word, a.window) ≠ (b.word, b.window))
    {c : WordCount} (hc : c ∈ cs) : amount c.word c.window cs = c.count.toNat := by
  induction cs with
  | nil => cases hc
  | cons d cs ih =>
    obtain ⟨hd, hcs⟩ := List.pairwise_cons.1 h
    rw [amount_cons]
    rcases List.mem_cons.1 hc with rfl | hc
    · have hrest : amount c.word c.window cs = 0 := amount_eq_zero fun e he hpair =>
        hd e he (Prod.ext hpair.1.symm hpair.2.symm)
      rw [if_pos ⟨rfl, rfl⟩, hrest, Nat.add_zero]
    · rw [if_neg fun hpair => hd c hc (Prod.ext hpair.1 hpair.2), ih hcs hc, Nat.zero_add]

theorem exists_of_amount_ne_zero (h : amount word w cs ≠ 0) :
    ∃ c ∈ cs, c.word = word ∧ c.window = w := by
  by_contra hnone
  exact h (amount_eq_zero fun c hc hpair => hnone ⟨c, hc, hpair⟩)

/-- A word count is told by its pair and the amount of that pair. -/
theorem mem_of_amount_eq (hcs : cs.Pairwise fun a b => (a.word, a.window) ≠ (b.word, b.window))
    (hds : ds.Pairwise fun a b => (a.word, a.window) ≠ (b.word, b.window))
    (h : ∀ word w, amount word w cs = amount word w ds) {c : WordCount} (hc : c ∈ cs)
    (hpos : 0 < c.count.toNat) : c ∈ ds := by
  have hamount := amount_of_mem hcs hc
  rw [h] at hamount
  have hsome : amount c.word c.window ds ≠ 0 := by omega
  obtain ⟨d, hd, hword, hwindow⟩ := exists_of_amount_ne_zero hsome
  have hcount := amount_of_mem hds hd
  rw [hword, hwindow, hamount, UInt64.toNat_inj] at hcount
  have hcd : c = d := by
    cases c
    cases d
    simp_all
  exact hcd ▸ hd

/-- Lists that count no pair twice and none at zero hold the same word counts if their amounts are
the same. -/
theorem perm_of_amount_eq (hcs : cs.Pairwise fun a b => (a.word, a.window) ≠ (b.word, b.window))
    (hds : ds.Pairwise fun a b => (a.word, a.window) ≠ (b.word, b.window))
    (hcpos : ∀ c ∈ cs, 0 < c.count.toNat) (hdpos : ∀ d ∈ ds, 0 < d.count.toNat)
    (h : ∀ word w, amount word w cs = amount word w ds) : cs.Perm ds := by
  have hnodup {l : List WordCount}
      (hl : l.Pairwise fun a b => (a.word, a.window) ≠ (b.word, b.window)) : l.Nodup := by
    refine hl.imp ?_
    rintro a b hab rfl
    exact hab rfl
  refine (List.perm_ext_iff_of_nodup (hnodup hcs) (hnodup hds)).2 fun c => ?_
  constructor
  · intro hc
    exact mem_of_amount_eq hcs hds h hc (hcpos c hc)
  · intro hd
    exact mem_of_amount_eq hds hcs (fun word w => (h word w).symm) hd (hdpos c hd)

/-- A list in listing order that counts no pair at zero is known from its amounts. -/
theorem eq_of_amount_eq_of_listed (hcs : cs.Pairwise ListsBefore) (hds : ds.Pairwise ListsBefore)
    (hcpos : ∀ c ∈ cs, 0 < c.count.toNat) (hdpos : ∀ d ∈ ds, 0 < d.count.toNat)
    (h : ∀ word w, amount word w cs = amount word w ds) : cs = ds := by
  have hne {a b : WordCount} (hab : a.ListsBefore b) :
      (a.word, a.window) ≠ (b.word, b.window) := fun heq => hab.ne (Prod.mk.inj heq)
  have hperm := perm_of_amount_eq (hcs.imp hne) (hds.imp hne) hcpos hdpos h
  refine hperm.eq_of_pairwise (fun a b _ _ hab hba => ?_) hcs hds
  exact absurd ⟨rfl, rfl⟩ (hab.trans hba).ne

end

end WordCount

/-! ## Tallies -/

namespace Tally

open WordCount (amount amount_cons amount_append amount_eq_zero amount_le)

/-- Transitivity of the listing order, in the form the lemmas on putting ask for. -/
theorem listsBefore_trans :
    ∀ a b c : WordCount, a.ListsBefore b → b.ListsBefore c → a.ListsBefore c :=
  fun _ _ _ => WordCount.ListsBefore.trans

theorem toNat_succSaturating (n : UInt64) :
    (succSaturating n).toNat = min (n.toNat + 1) (2 ^ 64 - 1) := by
  have hn := n.toNat_lt
  unfold succSaturating
  split
  · next h => rw [h]; rfl
  · next h =>
    have hne : n.toNat ≠ 2 ^ 64 - 1 := by
      intro he
      exact h (UInt64.toNat_inj.1 (by rw [he]; rfl))
    rw [UInt64.toNat_add, UInt64.toNat_one, Nat.mod_eq_of_lt (by omega)]
    omega

/-- Counting a word in a window adds one to the amount of that pair, up to the largest count, and
to no other. -/
theorem amount_count (t : Tally) (word x : String) (w v : Window) :
    amount x v (t.count word w).entries =
      if x = word ∧ v = w then min (amount x v t.entries + 1) (2 ^ 64 - 1)
      else amount x v t.entries := by
  split
  · next hpair =>
    obtain ⟨rfl, rfl⟩ := hpair
    simp only [count]
    rcases Ordered.put_split listsBefore_trans t.ordered ⟨x, 1, v⟩ bump with
      ⟨before, after, hl, hput, hrank⟩ | ⟨before, c, after, hl, hput, h1, h2⟩
    · have hnone : amount x v t.entries = 0 := by
        refine amount_eq_zero fun c hc hpair => ?_
        rcases hrank c hc with h | h
        · exact h.ne ⟨hpair.1.symm, hpair.2.symm⟩
        · exact h.ne hpair
      rw [hput, hnone]
      rw [hl, amount_append] at hnone
      rw [amount_append, amount_cons, if_pos ⟨rfl, rfl⟩, UInt64.toNat_one]
      omega
    · have hc := WordCount.eq_of_not_listsBefore h1 h2
      have hord := t.ordered
      rw [hl, List.pairwise_append, List.pairwise_cons] at hord
      have hbefore : amount x v before = 0 := amount_eq_zero fun d hd hd' =>
        (hord.2.2 d hd c List.mem_cons_self).ne ⟨hd'.1.trans hc.1.symm, hd'.2.trans hc.2.symm⟩
      have hafter : amount x v after = 0 := amount_eq_zero fun d hd hd' =>
        (hord.2.1.1 d hd).ne ⟨hc.1.trans hd'.1.symm, hc.2.trans hd'.2.symm⟩
      rw [hput, hl]
      simp only [amount_append, amount_cons, hbefore, hafter, bump, hc, toNat_succSaturating]
      simp
  · next hpair =>
    simp only [amount, count]
    rw [Ordered.filter_put listsBefore_trans t.ordered]
    · simpa using fun h => fun h' => hpair ⟨h.symm, h'.symm⟩
    · intro c h1 h2
      have hc := WordCount.eq_of_not_listsBefore h1 h2
      have hno : ¬ (word = x ∧ w = v) := fun h => hpair ⟨h.1.symm, h.2.symm⟩
      simpa [bump, hc] using hno

/-- Counting in a window changes no selection of entries of other windows. -/
theorem filter_count {p : Window → Bool} (t : Tally) (word : String) {w : Window}
    (hw : p w = false) :
    (t.count word w).entries.filter (fun c => p c.window) =
      t.entries.filter fun c => p c.window := by
  simp only [count]
  refine Ordered.filter_put listsBefore_trans t.ordered hw fun c h1 h2 => ?_
  have hc := (WordCount.eq_of_not_listsBefore h1 h2).2
  simp only at hc
  simp [bump, hc, hw]

theorem window_of_mem_count {t : Tally} {word : String} {w : Window} {c : WordCount}
    (hc : c ∈ (t.count word w).entries) : c.window = w ∨ ∃ d ∈ t.entries, d.window = c.window := by
  rcases Ordered.mem_put hc with rfl | hc | ⟨d, hd, rfl⟩
  · exact .inl rfl
  · exact .inr ⟨c, hc, rfl⟩
  · exact .inr ⟨d, hd, rfl⟩

/-- Counting a word in several windows adds to each as often as it is listed. -/
theorem amount_countAll (t : Tally) (word x : String) (ws : List Window) (v : Window) :
    amount x v (t.countAll word ws).entries =
      if x = word then min (amount x v t.entries + ws.count v) (2 ^ 64 - 1)
      else amount x v t.entries := by
  induction ws generalizing t with
  | nil =>
    have hle : amount x v t.entries ≤ 2 ^ 64 - 1 := amount_le t.ordered
    simp only [countAll, List.foldl_nil, List.count_nil, Nat.add_zero]
    split <;> omega
  | cons w ws ih =>
    have := ih (t.count word w)
    simp only [countAll, List.foldl_cons] at this ⊢
    rw [this, amount_count, List.count_cons]
    by_cases hx : x = word
    · by_cases hv : w = v
      · simp only [hx, hv, and_self, if_true, beq_self_eq_true]
        omega
      · simp [hx, hv, Ne.symm hv]
    · simp [hx]

/-- Counting a word in several windows, none of them twice. -/
theorem amount_countAll_of_nodup {ws : List Window} (hws : ws.Nodup) (t : Tally) (word x : String)
    (v : Window) :
    amount x v (t.countAll word ws).entries =
      if x = word ∧ v ∈ ws then min (amount x v t.entries + 1) (2 ^ 64 - 1)
      else amount x v t.entries := by
  have hle : amount x v t.entries ≤ 2 ^ 64 - 1 := amount_le t.ordered
  rw [amount_countAll, hws.count]
  by_cases hx : x = word
  · by_cases hv : v ∈ ws
    · simp [hx, hv]
    · simp only [hx, hv, and_false, if_true, if_false, Nat.add_zero]
      exact min_eq_left (hx ▸ hle)
  · simp [hx]

/-- Count several words, each in the same windows. -/
def countWords (t : Tally) (ws : List Window) (words : List String) : Tally :=
  words.foldl (fun t word => t.countAll word ws) t

theorem amount_countWords {ws : List Window} (hws : ws.Nodup) (t : Tally) (words : List String)
    (x : String) (v : Window) :
    amount x v (t.countWords ws words).entries =
      if v ∈ ws then min (amount x v t.entries + words.count x) (2 ^ 64 - 1)
      else amount x v t.entries := by
  induction words generalizing t with
  | nil =>
    have hle : amount x v t.entries ≤ 2 ^ 64 - 1 := amount_le t.ordered
    simp only [countWords, List.foldl_nil, List.count_nil, Nat.add_zero]
    split <;> omega
  | cons word words ih =>
    have := ih (t.countAll word ws)
    simp only [countWords, List.foldl_cons] at this ⊢
    rw [this, amount_countAll_of_nodup hws, List.count_cons]
    by_cases hv : v ∈ ws
    · by_cases hx : word = x
      · simp only [hv, hx, and_self, if_true, beq_self_eq_true]
        omega
      · simp [hv, hx, Ne.symm hx]
    · simp [hv]

/-- What every single count keeps, counting several words keeps. -/
theorem countWords_induction {P : Tally → Prop} {ws : List Window}
    (step : ∀ t word, ∀ w ∈ ws, P t → P (t.count word w)) (words : List String) {t : Tally}
    (h : P t) : P (t.countWords ws words) := by
  have hall : ∀ word t, P t → P (t.countAll word ws) := by
    intro word
    induction ws with
    | nil => exact fun t ht => ht
    | cons w ws ih =>
      intro t ht
      exact ih (fun t word v hv => step t word v (List.mem_cons_of_mem _ hv)) _
        (step t word w List.mem_cons_self ht)
  induction words generalizing t with
  | nil => exact h
  | cons word words ih => exact ih (hall word t h)

theorem store_countWords (t : Tally) (ws : List Window) (words : List String) :
    (t.countWords ws words).store = t.store :=
  countWords_induction (P := fun t' => t'.store = t.store) (fun _ _ _ _ ht' => ht') words rfl

/-- Counting in some windows changes no selection of entries of others. -/
theorem filter_countWords {p : Window → Bool} {ws : List Window} (hws : ∀ w ∈ ws, p w = false)
    (t : Tally) (words : List String) :
    (t.countWords ws words).entries.filter (fun c => p c.window) =
      t.entries.filter fun c => p c.window := by
  refine countWords_induction (P := fun t' => t'.entries.filter (fun c => p c.window) =
    t.entries.filter fun c => p c.window) ?_ words rfl
  intro t' word w hw ht'
  exact (t'.filter_count word (hws w hw)).trans ht'

/-- Counting makes entries of the windows counted in only. -/
theorem window_of_mem_countWords {t : Tally} {ws : List Window} {words : List String}
    {c : WordCount} (hc : c ∈ (t.countWords ws words).entries) :
    c.window ∈ ws ∨ ∃ d ∈ t.entries, d.window = c.window := by
  refine countWords_induction (P := fun t' => ∀ c ∈ t'.entries,
    c.window ∈ ws ∨ ∃ d ∈ t.entries, d.window = c.window) ?_ words
    (fun c hc => .inr ⟨c, hc, rfl⟩) c hc
  intro t' word w hw ht' c hc
  rcases window_of_mem_count hc with h | ⟨d, hd, hdc⟩
  · exact .inl (h ▸ hw)
  · exact hdc ▸ ht' d hd

/-- Taking a window out parts its amounts from the others. -/
theorem amount_takeOut (u : Tally) (v : Window) (word : String) (w : Window) :
    amount word w (u.takeOut v).1 = (if v = w then amount word w u.entries else 0) ∧
      amount word w (u.takeOut v).2.entries = if v = w then 0 else amount word w u.entries := by
  simp only [takeOut]
  split
  · next hv =>
    subst hv
    refine ⟨WordCount.amount_filter (p := fun x => decide (x = v)) (by simp) _,
      amount_eq_zero fun c hc hpair => ?_⟩
    have hne := (List.mem_filter.1 hc).2
    simp [hpair.2] at hne
  · next hv =>
    refine ⟨amount_eq_zero fun c hc hpair => ?_,
      WordCount.amount_filter (p := fun x => !decide (x = v)) (by simpa using Ne.symm hv) _⟩
    have heq := (List.mem_filter.1 hc).2
    simp only [decide_eq_true_eq] at heq
    exact hv (heq.symm.trans hpair.2)

/-- A tally without entries that count nothing. -/
def Positive (t : Tally) : Prop := ∀ c ∈ t.entries, 0 < c.count.toNat

theorem positive_count {t : Tally} (h : t.Positive) (word : String) (w : Window) :
    (t.count word w).Positive := by
  intro c hc
  rcases Ordered.mem_put hc with rfl | hc | ⟨d, -, rfl⟩
  · exact Nat.one_pos
  · exact h c hc
  · rw [bump, toNat_succSaturating]
    omega

theorem positive_countWords {t : Tally} (h : t.Positive) (ws : List Window)
    (words : List String) : (t.countWords ws words).Positive :=
  countWords_induction (P := Positive) (fun _ word w _ ht => positive_count ht word w) words h

end Tally

end WindowTally
