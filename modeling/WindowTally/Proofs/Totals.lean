import Mathlib.Data.Finset.Card
import WindowTally.Proofs.Amount

/-!
# Totals of word counts

A list of word counts stands for so many occurrences (`WordCount.total`) in so many
windows (`WordCount.windowCount`). A tally gains an occurrence for each window that a
word is counted in, as long as no count stops at the largest number
(`Tally.total_countWords`), and its open windows are the windows that its entries
speak of (`Tally.length_openWindows`).
-/
namespace WindowTally

/-! ## Windows in listing order -/

namespace Window

theorem nodup_of_listed {ws : List Window} (h : ws.Pairwise ListsBefore) : ws.Nodup := by
  refine h.imp ?_
  rintro v w hvw rfl
  exact hvw.irrefl

/-- A list of windows in listing order is known from its members. -/
theorem eq_of_mem_iff_of_listed {vs ws : List Window} (hvs : vs.Pairwise ListsBefore)
    (hws : ws.Pairwise ListsBefore) (h : ∀ w, w ∈ vs ↔ w ∈ ws) : vs = ws := by
  have hperm := (List.perm_ext_iff_of_nodup (nodup_of_listed hvs) (nodup_of_listed hws)).2 h
  refine hperm.eq_of_pairwise (fun a b _ _ hab hba => ?_) hvs hws
  exact absurd (hab.trans hba) ListsBefore.irrefl

end Window

/-! ## Word counts -/

namespace WordCount

/-- How many occurrences word counts stand for. -/
def total (cs : List WordCount) : Nat := (cs.map (·.count.toNat)).sum

/-- How many windows word counts speak of. -/
def windowCount (cs : List WordCount) : Nat := (cs.map (·.window)).toFinset.card

@[simp]
theorem total_nil : total [] = 0 := rfl

@[simp]
theorem total_cons (c : WordCount) (cs : List WordCount) :
    total (c :: cs) = c.count.toNat + total cs := List.sum_cons

@[simp]
theorem total_append (cs ds : List WordCount) : total (cs ++ ds) = total cs + total ds := by
  simp [total]

theorem total_perm {cs ds : List WordCount} (h : cs.Perm ds) : total cs = total ds :=
  (h.map _).sum_nat

@[simp]
theorem windowCount_nil : windowCount [] = 0 := rfl

theorem windowCount_le_length (cs : List WordCount) : windowCount cs ≤ cs.length :=
  (List.toFinset_card_le _).trans (Nat.le_of_eq (List.length_map _))

/-- Word counts of different windows speak of the windows of both. -/
theorem windowCount_append {cs ds : List WordCount}
    (h : ∀ c ∈ cs, ∀ d ∈ ds, c.window ≠ d.window) :
    windowCount (cs ++ ds) = windowCount cs + windowCount ds := by
  have hdisjoint : Disjoint (cs.map (·.window)).toFinset (ds.map (·.window)).toFinset := by
    refine Finset.disjoint_left.2 fun w hw hw' => ?_
    obtain ⟨c, hc, rfl⟩ := List.mem_map.1 (List.mem_toFinset.1 hw)
    obtain ⟨d, hd, hdc⟩ := List.mem_map.1 (List.mem_toFinset.1 hw')
    exact h c hc d hd hdc.symm
  unfold windowCount
  rw [List.map_append, List.toFinset_append, Finset.card_union_of_disjoint hdisjoint]

/-- Word counts of one window speak of it alone. -/
theorem windowCount_of_window {w : Window} {cs : List WordCount} (hne : cs ≠ [])
    (h : ∀ c ∈ cs, c.window = w) : windowCount cs = 1 := by
  have hsingle : (cs.map (·.window)).toFinset = {w} := by
    obtain ⟨c, hc⟩ := List.exists_mem_of_ne_nil cs hne
    ext v
    simp only [List.mem_toFinset, List.mem_map, Finset.mem_singleton]
    constructor
    · rintro ⟨d, hd, rfl⟩
      exact h d hd
    · rintro rfl
      exact ⟨c, hc, h c hc⟩
  rw [windowCount, hsingle, Finset.card_singleton]

end WordCount

/-! ## Tallies -/

namespace Tally

open WordCount (amount amount_le le_amount total total_append total_cons windowCount)

/-- Counting a word in a window adds one occurrence, unless the count is the largest number. -/
theorem total_count (t : Tally) {word : String} {w : Window}
    (hroom : amount word w t.entries < 2 ^ 64 - 1) :
    total (t.count word w).entries = total t.entries + 1 := by
  simp only [count]
  rcases Ordered.put_split listsBefore_trans t.ordered ⟨word, 1, w⟩ bump with
    ⟨before, after, hl, hput, -⟩ | ⟨before, c, after, hl, hput, h1, h2⟩
  · rw [hput, hl]
    simp only [total_append, total_cons, UInt64.toNat_one]
    omega
  · obtain ⟨hword, hwindow⟩ := WordCount.eq_of_not_listsBefore h1 h2
    have hle : c.count.toNat ≤ amount word w t.entries := by
      have hself : c.count.toNat ≤ amount c.word c.window t.entries :=
        le_amount (hl ▸ List.mem_append_right before List.mem_cons_self)
      rwa [hword, hwindow] at hself
    rw [hput, hl]
    simp only [total_append, total_cons, bump, toNat_succSaturating]
    omega

theorem total_countAll {ws : List Window} (hws : ws.Nodup) (t : Tally) {word : String}
    (hroom : ∀ w ∈ ws, amount word w t.entries < 2 ^ 64 - 1) :
    total (t.countAll word ws).entries = total t.entries + ws.length := by
  induction ws generalizing t with
  | nil => rfl
  | cons w ws ih =>
    obtain ⟨hw, hws⟩ := List.nodup_cons.1 hws
    have hrest : ∀ v ∈ ws, amount word v (t.count word w).entries < 2 ^ 64 - 1 := by
      intro v hv
      have hne : v ≠ w := fun e => hw (e ▸ hv)
      rw [amount_count, if_neg fun h => hne h.2]
      exact hroom v (List.mem_cons_of_mem _ hv)
    have hlater := ih hws (t.count word w) hrest
    rw [total_count t (hroom w List.mem_cons_self)] at hlater
    rw [List.length_cons, Nat.add_comm ws.length, ← Nat.add_assoc]
    exact hlater

/-- Counting words adds one occurrence for each word and each window, as long as no count stops at
the largest number. -/
theorem total_countWords {ws : List Window} (hws : ws.Nodup) (t : Tally) {words : List String}
    (hroom : ∀ x, ∀ w ∈ ws, amount x w t.entries + words.length ≤ 2 ^ 64 - 1) :
    total (t.countWords ws words).entries = total t.entries + words.length * ws.length := by
  induction words generalizing t with
  | nil => simp [countWords]
  | cons word words ih =>
    simp only [List.length_cons] at hroom
    have hrest : ∀ x, ∀ w ∈ ws,
        amount x w (t.countAll word ws).entries + words.length ≤ 2 ^ 64 - 1 := by
      intro x w hw
      have hbefore := hroom x w hw
      rw [amount_countAll_of_nodup hws]
      split <;> omega
    have hfirst : total (t.countAll word ws).entries = total t.entries + ws.length := by
      refine total_countAll hws t fun w hw => ?_
      have hbefore := hroom word w hw
      omega
    have hlater := ih (t.countAll word ws) hrest
    rw [hfirst] at hlater
    rw [List.length_cons, Nat.add_mul, Nat.one_mul, Nat.add_comm (_ * _), ← Nat.add_assoc]
    exact hlater

/-- Counting words makes one entry at most for each word and each window. -/
theorem length_countWords_le (t : Tally) (ws : List Window) (words : List String) :
    (t.countWords ws words).entries.length ≤ t.entries.length + words.length * ws.length := by
  have hall (t : Tally) (word : String) :
      (t.countAll word ws).entries.length ≤ t.entries.length + ws.length := by
    induction ws generalizing t with
    | nil => exact Nat.le_refl _
    | cons w ws ih =>
      have hfirst : (t.count word w).entries.length ≤ t.entries.length + 1 :=
        Ordered.length_put_le _ _ _
      have hrest := ih (t.count word w)
      simp only [countAll, List.foldl_cons, List.length_cons] at hrest ⊢
      omega
  induction words generalizing t with
  | nil => exact Nat.le_add_right _ _
  | cons word words ih =>
    have hfirst := hall t word
    have hrest := ih (t.countAll word ws)
    simp only [countWords, List.foldl_cons, List.length_cons, Nat.succ_mul] at hrest ⊢
    omega

theorem mem_windowsOf {cs : List WordCount} {w : Window} :
    w ∈ windowsOf cs ↔ w ∈ cs.map (·.window) := by
  induction cs with
  | nil => exact Iff.rfl
  | cons c cs ih =>
    rw [List.map_cons, List.mem_cons, ← ih, windowsOf]
    split
    · next hnone => simp [hnone]
    · next v vs hcs =>
      rw [hcs]
      split
      · next h => simp [h]
      · exact List.mem_cons

/-- Entries in listing order list each window once. -/
theorem pairwise_windowsOf {cs : List WordCount} (h : cs.Pairwise WordCount.ListsBefore) :
    (windowsOf cs).Pairwise Window.ListsBefore := by
  induction cs with
  | nil => exact List.Pairwise.nil
  | cons c cs ih =>
    obtain ⟨hc, hcs⟩ := List.pairwise_cons.1 h
    have hrest := ih hcs
    rw [windowsOf]
    split
    · exact List.pairwise_singleton _ _
    · next w ws hws =>
      rw [hws] at hrest
      split
      · exact hrest
      · next hne =>
        have hfirst : c.window.ListsBefore w := by
          obtain ⟨d, hd, rfl⟩ := List.mem_map.1 (mem_windowsOf.1 (hws ▸ List.mem_cons_self))
          exact (hc d hd).resolve_right fun h => hne h.1
        refine List.pairwise_cons.2 ⟨fun v hv => ?_, hrest⟩
        rcases List.mem_cons.1 hv with rfl | hv
        · exact hfirst
        · exact hfirst.trans ((List.pairwise_cons.1 hrest).1 v hv)

theorem length_openWindows (t : Tally) : t.openWindows.length = windowCount t.entries := by
  have hsame : (t.entries.map (·.window)).toFinset = t.openWindows.toFinset := by
    ext w
    rw [List.mem_toFinset, List.mem_toFinset, openWindows, mem_windowsOf]
  have hnodup : t.openWindows.Nodup := Window.nodup_of_listed (pairwise_windowsOf t.ordered)
  rw [windowCount, hsame, List.toFinset_card_of_nodup hnodup]

end Tally

end WindowTally
