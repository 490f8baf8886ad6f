import WindowTally.Proofs.Totals

/-!
# Counts by window

`CountsByWindow` stores the counts of each window together, in a row that is made with
the first word counted in the window and removed as a whole. A row keeps its words
unsorted; entries are put in order where they are read. It answers like a `Tally`,
which keeps the same entries in one list: `Holds t u` says that `t` holds the entries
of `u`, and every operation keeps it (`holds_count`, `holds_takeOut`).

The queries that look at rows only, such as whether there is any, depend on a row never
being empty (`Filled`): that is what counting makes and taking out leaves
(`wellFormed_count`, `wellFormed_takeOut`).
-/
namespace WindowTally

open WordCount (amount amount_append amount_cons amount_eq_zero amount_perm)

/-- The counts of words by window: a row for each window, in listing order, with its words in no
order. -/
structure CountsByWindow where
  store : String
  rows : List (Window × List (String × UInt64)) := []

namespace CountsByWindow

/-- Count a word in a row: its count rises by one, or the word comes in with a count of one. -/
def countIn (word : String) : List (String × UInt64) → List (String × UInt64)
  | [] => [(word, 1)]
  | (x, n) :: row =>
    if x = word then (x, Tally.succSaturating n) :: row else (x, n) :: countIn word row

/-- Count one occurrence of a word in a window, whose row is made if there is none. -/
def count (t : CountsByWindow) (word : String) (w : Window) : CountsByWindow :=
  { t with
    rows := Ordered.put (fun a b => a.1.ListsBefore b.1) (w, countIn word [])
      (fun r => (r.1, countIn word r.2)) t.rows }

/-- Count one occurrence of a word in each of several windows. -/
def countAll (t : CountsByWindow) (word : String) (ws : List Window) : CountsByWindow :=
  ws.foldl (fun t w => t.count word w) t

/-- The entries of a row, by word. -/
def listed (w : Window) (row : List (String × UInt64)) : List WordCount :=
  (row.map fun p => ⟨p.1, p.2, w⟩).mergeSort fun a b => decide (a.word ≤ b.word)

/-- All entries, by window and word. -/
def snapshot (t : CountsByWindow) : List WordCount := t.rows.flatMap fun r => listed r.1 r.2

/-- Take a window out: the entries of its row, and the table without the row. -/
def takeOut (t : CountsByWindow) (w : Window) : List WordCount × CountsByWindow :=
  ((t.rows.lookup w).elim [] (listed w),
    { t with rows := t.rows.filter fun r => !decide (r.1 = w) })

/-- How often a word has occurred in a window, if it has. -/
def count? (t : CountsByWindow) (word : String) (w : Window) : Option UInt64 :=
  (t.rows.lookup w).bind fun row => row.lookup word

/-- The windows that have a row. -/
def openWindows (t : CountsByWindow) : List Window := t.rows.map (·.1)

/-- How many windows have a row. -/
def windowCount (t : CountsByWindow) : Nat := t.rows.length

/-- How many entries the rows have together. -/
def size (t : CountsByWindow) : Nat := (t.rows.map (·.2.length)).sum

/-- Whether there is no row. -/
def isEmpty (t : CountsByWindow) : Bool := t.rows.isEmpty

/-- A row with an entry, with one for each of its words, and with none that counts nothing. -/
structure Filled (row : List (String × UInt64)) : Prop where
  ne_nil : row ≠ []
  once : (row.map (·.1)).Nodup
  positive : ∀ p ∈ row, 0 < p.2.toNat

/-- Rows in listing order, none of them empty. -/
structure WellFormed (t : CountsByWindow) : Prop where
  ordered : t.rows.Pairwise fun a b => a.1.ListsBefore b.1
  filled : ∀ r ∈ t.rows, Filled r.2

/-! ## Rows -/

section
variable {word x : String} {w v : Window} {row : List (String × UInt64)}

theorem perm_listed : (listed w row).Perm (row.map fun p => ⟨p.1, p.2, w⟩) :=
  List.mergeSort_perm _ _

theorem window_of_mem_listed {c : WordCount} (hc : c ∈ listed w row) : c.window = w := by
  obtain ⟨p, -, rfl⟩ := List.mem_map.1 (perm_listed.mem_iff.1 hc)
  rfl

theorem filter_listed : (listed w row).filter (fun c => c.window = v) =
    if w = v then listed w row else [] := by
  split
  · next hw => exact List.filter_eq_self.2 fun c hc => by simp [window_of_mem_listed hc, hw]
  · next hw => exact List.filter_eq_nil_iff.2 fun c hc => by simp [window_of_mem_listed hc, hw]

theorem filter_not_listed : (listed w row).filter (fun c => !decide (c.window = v)) =
    if w = v then [] else listed w row := by
  split
  · next hw => exact List.filter_eq_nil_iff.2 fun c hc => by simp [window_of_mem_listed hc, hw]
  · next hw => exact List.filter_eq_self.2 fun c hc => by simp [window_of_mem_listed hc, hw]

theorem pairwise_listed (hrow : (row.map (·.1)).Nodup) :
    (listed w row).Pairwise WordCount.ListsBefore := by
  have hsorted : (listed w row).Pairwise fun a b => decide (a.word ≤ b.word) = true := by
    refine List.pairwise_mergeSort (fun a b c hab hbc => ?_) (fun a b => ?_) _
    · rw [decide_eq_true_iff] at hab hbc ⊢
      exact String.le_trans hab hbc
    · simpa using String.le_total a.word b.word
  have hwords : ((listed w row).map (·.word)).Nodup := by
    refine ((perm_listed.map _).nodup_iff).2 ?_
    rw [List.map_map]
    exact hrow
  refine (hsorted.and (List.pairwise_map.1 hwords)).imp_of_mem ?_
  rintro a b ha hb ⟨hle, hne⟩
  have hwindow := (window_of_mem_listed ha).trans (window_of_mem_listed hb).symm
  refine .inr ⟨hwindow, String.not_le.1 fun hba => hne ?_⟩
  exact String.le_antisymm (of_decide_eq_true hle) hba

theorem lookup_countIn : (countIn word row).lookup x =
    if x = word then some ((row.lookup word).elim 1 Tally.succSaturating) else row.lookup x := by
  induction row with
  | nil => by_cases hx : x = word <;> simp [countIn, hx]
  | cons p row ih =>
    obtain ⟨y, n⟩ := p
    rw [countIn]
    by_cases hy : y = word
    · subst hy
      rw [if_pos rfl, List.lookup_cons, List.lookup_cons, List.lookup_cons]
      by_cases hx : x = y
      · simp [hx]
      · have hxy : (x == y) = false := by simpa using hx
        simp [hx, hxy]
    · by_cases hx : x = y
      · subst hx
        simp [hy]
      · have hxy : (x == y) = false := by simpa using hx
        have hwy : (word == y) = false := by simpa using Ne.symm hy
        rw [if_neg hy, List.lookup_cons, List.lookup_cons, List.lookup_cons, hxy, hwy, ih]

theorem mem_words_countIn :
    x ∈ (countIn word row).map (·.1) ↔ x = word ∨ x ∈ row.map (·.1) := by
  induction row with
  | nil => simp [countIn]
  | cons p row ih =>
    rw [countIn]
    split
    · next hy => simp [hy]
    · rw [List.map_cons, List.mem_cons, ih, List.map_cons, List.mem_cons]
      exact or_left_comm

theorem nodup_countIn (hrow : (row.map (·.1)).Nodup) : ((countIn word row).map (·.1)).Nodup := by
  induction row with
  | nil => exact List.nodup_singleton _
  | cons p row ih =>
    obtain ⟨hy, hrest⟩ := List.nodup_cons.1 hrow
    rw [countIn]
    split
    · exact List.nodup_cons.2 ⟨hy, hrest⟩
    · next hne =>
      refine List.nodup_cons.2 ⟨fun hmem => ?_, ih hrest⟩
      rcases mem_words_countIn.1 hmem with h | h
      · exact hne h
      · exact hy h

theorem positive_countIn (hrow : ∀ p ∈ row, 0 < p.2.toNat) :
    ∀ p ∈ countIn word row, 0 < p.2.toNat := by
  induction row with
  | nil => simp [countIn]
  | cons p row ih =>
    obtain ⟨hp, hrest⟩ := List.forall_mem_cons.1 hrow
    rw [countIn]
    split
    · refine List.forall_mem_cons.2 ⟨?_, hrest⟩
      rw [Tally.toNat_succSaturating]
      omega
    · exact List.forall_mem_cons.2 ⟨hp, ih hrest⟩

theorem filled_countIn (hrow : row = [] ∨ Filled row) : Filled (countIn word row) := by
  have honce : (row.map (·.1)).Nodup := by
    rcases hrow with rfl | hrow
    · exact List.nodup_nil
    · exact hrow.once
  have hpositive : ∀ p ∈ row, 0 < p.2.toNat := by
    rcases hrow with rfl | hrow
    · exact fun p hp => absurd hp List.not_mem_nil
    · exact hrow.positive
  refine ⟨fun hnil => ?_, nodup_countIn honce, positive_countIn hpositive⟩
  have hmem : word ∈ (countIn word row).map (·.1) := mem_words_countIn.2 (.inl rfl)
  rw [hnil] at hmem
  cases hmem

/-- A row with one entry for a word tells of a word what its entry tells. -/
theorem amount_listed (hrow : (row.map (·.1)).Nodup) : amount x v (listed w row) =
    if v = w then (row.lookup x).elim 0 UInt64.toNat else 0 := by
  rw [amount_perm perm_listed]
  induction row with
  | nil => simp
  | cons p row ih =>
    obtain ⟨y, n⟩ := p
    obtain ⟨hy, hrow⟩ := List.nodup_cons.1 hrow
    rw [List.map_cons, amount_cons, ih hrow, List.lookup_cons]
    by_cases hv : v = w
    · by_cases hx : x = y
      · subst hx
        have hnone : row.lookup x = none := by
          rw [List.lookup_eq_none_iff]
          intro p hp
          simpa using fun h : x = p.1 => hy (List.mem_map.2 ⟨p, hp, h.symm⟩)
        simp [hv, hnone]
      · have hxy : (x == y) = false := by simpa using hx
        simp [hv, hxy, Ne.symm hx]
    · simp [hv, Ne.symm hv]

end

/-! ## Rows -/

section
variable {rows : List (Window × List (String × UInt64))}

theorem lookup_eq_none_of_before {w : Window} (h : ∀ r ∈ rows, w.ListsBefore r.1) :
    rows.lookup w = none := by
  rw [List.lookup_eq_none_iff]
  intro r hr
  have hne : w ≠ r.1 := fun heq => Window.ListsBefore.irrefl (heq ▸ h r hr)
  simpa using hne

theorem lookup_put (hrows : rows.Pairwise fun a b => a.1.ListsBefore b.1) (w v : Window)
    (word : String) :
    (Ordered.put (fun a b => a.1.ListsBefore b.1) (w, countIn word [])
      (fun r => (r.1, countIn word r.2)) rows).lookup v =
      if v = w then some (countIn word ((rows.lookup w).getD [])) else rows.lookup v := by
  induction rows with
  | nil => by_cases hv : v = w <;> simp [Ordered.put, hv]
  | cons r rows ih =>
    obtain ⟨u, row⟩ := r
    obtain ⟨hu, hrest⟩ := List.pairwise_cons.1 hrows
    simp only [Ordered.put]
    split
    · next hwu =>
      have hnone : List.lookup w ((u, row) :: rows) = none := by
        refine lookup_eq_none_of_before fun r hr => ?_
        rcases List.mem_cons.1 hr with rfl | hr
        · exact hwu
        · exact hwu.trans (hu r hr)
      rw [hnone, List.lookup_cons]
      by_cases hv : v = w
      · simp [hv]
      · have hvw : (v == w) = false := by simpa using hv
        simp [hv, hvw]
    · next hwu =>
      split
      · next huw =>
        have hne : (w == u) = false := by
          simpa using fun heq : w = u => Window.ListsBefore.irrefl (heq ▸ huw)
        rw [List.lookup_cons, ih hrest, List.lookup_cons, List.lookup_cons, hne]
        by_cases hv : v = w
        · simp [hv, hne]
        · simp [hv]
      · next huw =>
        have heq : w = u := Window.eq_of_not_listsBefore hwu huw
        subst heq
        rw [List.lookup_cons, List.lookup_cons, List.lookup_cons]
        by_cases hv : v = w
        · simp [hv]
        · have hvw : (v == w) = false := by simpa using hv
          simp [hv, hvw]

end

section
variable {t : CountsByWindow} (h : t.WellFormed)
include h

theorem amount_snapshot (word : String) (w : Window) :
    amount word w t.snapshot = (t.count? word w).elim 0 UInt64.toNat := by
  obtain ⟨store, rows⟩ := t
  obtain ⟨hordered, hfilled⟩ := h
  simp only [snapshot, count?] at *
  induction rows with
  | nil => rfl
  | cons r rows ih =>
    obtain ⟨v, row⟩ := r
    obtain ⟨hv, hrest⟩ := List.pairwise_cons.1 hordered
    obtain ⟨hrow, hfilled⟩ := List.forall_mem_cons.1 hfilled
    rw [List.flatMap_cons, amount_append, ih hrest hfilled, amount_listed hrow.once,
      List.lookup_cons]
    by_cases hw : w = v
    · subst hw
      rw [lookup_eq_none_of_before hv]
      simp
    · have hwv : (w == v) = false := by simpa using hw
      simp [hw, hwv]

theorem pairwise_snapshot : t.snapshot.Pairwise WordCount.ListsBefore := by
  refine List.pairwise_flatMap.2 ⟨fun r hr => pairwise_listed (h.filled r hr).once, ?_⟩
  refine h.ordered.imp fun {r s} hrs c hc d hd => .inl ?_
  rw [window_of_mem_listed hc, window_of_mem_listed hd]
  exact hrs

theorem positive_snapshot : ∀ c ∈ t.snapshot, 0 < c.count.toNat := by
  intro c hc
  obtain ⟨r, hr, hc⟩ := List.mem_flatMap.1 hc
  obtain ⟨p, hp, rfl⟩ := List.mem_map.1 (perm_listed.mem_iff.1 hc)
  exact (h.filled r hr).positive p hp

omit h in
/-- What is left are the entries of all other windows. -/
theorem snapshot_takeOut_snd (w : Window) :
    (t.takeOut w).2.snapshot = t.snapshot.filter fun c => !decide (c.window = w) := by
  obtain ⟨store, rows⟩ := t
  simp only [snapshot, takeOut, List.filter_flatMap, filter_not_listed]
  induction rows with
  | nil => rfl
  | cons r rows ih =>
    rw [List.flatMap_cons, ← ih, List.filter_cons]
    by_cases hr : r.1 = w
    · simp [hr]
    · simp [hr]

/-- What is taken out are the entries of the window. -/
theorem takeOut_fst (w : Window) :
    (t.takeOut w).1 = t.snapshot.filter fun c => c.window = w := by
  obtain ⟨store, rows⟩ := t
  have hordered := h.ordered
  simp only [snapshot, takeOut, List.filter_flatMap, filter_listed] at hordered ⊢
  clear h
  induction rows with
  | nil => rfl
  | cons r rows ih =>
    obtain ⟨v, row⟩ := r
    obtain ⟨hv, hrest⟩ := List.pairwise_cons.1 hordered
    rw [List.flatMap_cons, ← ih hrest, List.lookup_cons]
    by_cases hw : w = v
    · subst hw
      rw [lookup_eq_none_of_before hv]
      simp
    · have hwv : (w == v) = false := by simpa using hw
      simp [hwv, Ne.symm hw]

theorem wellFormed_takeOut (w : Window) : (t.takeOut w).2.WellFormed :=
  ⟨h.ordered.filter _, fun r hr => h.filled r (List.mem_of_mem_filter hr)⟩

theorem wellFormed_count (word : String) (w : Window) : (t.count word w).WellFormed := by
  constructor
  · simp only [count]
    refine Ordered.pairwise_put ?_ ?_ ?_ h.ordered
    · exact Window.ListsBefore.trans
    · exact fun h => h
    · exact fun h => h
  · intro r hr
    rcases Ordered.mem_put hr with rfl | hr | ⟨s, hs, rfl⟩
    · exact filled_countIn (.inl rfl)
    · exact h.filled r hr
    · exact filled_countIn (.inr (h.filled s hs))

theorem count?_count (word x : String) (w v : Window) : (t.count word w).count? x v =
    if x = word ∧ v = w then some ((t.count? x v).elim 1 Tally.succSaturating)
    else t.count? x v := by
  rw [count?, count, lookup_put h.ordered]
  by_cases hv : v = w
  · subst hv
    rw [if_pos rfl, Option.bind_some, lookup_countIn, count?]
    cases t.rows.lookup v with
    | none => simp
    | some row => by_cases hx : x = word <;> simp [hx]
  · rw [if_neg hv, if_neg fun hpair => hv hpair.2, count?]

end

end CountsByWindow

/-! ## Looking up -/

theorem mem_of_lookup_eq_some {α β : Type} [BEq α] [LawfulBEq α] {l : List (α × β)} {a : α} {b : β}
    (h : l.lookup a = some b) : (a, b) ∈ l := by
  obtain ⟨before, after, rfl, -⟩ := List.lookup_eq_some_iff.1 h
  exact List.mem_append_right _ List.mem_cons_self

/-- Counts that are not zero, each if there is one, are told by their values, a missing one being
told by zero. -/
theorem eq_of_elim_toNat_eq {m n : Option UInt64} (hm : ∀ k ∈ m, 0 < k.toNat)
    (hn : ∀ k ∈ n, 0 < k.toNat) (h : m.elim 0 UInt64.toNat = n.elim 0 UInt64.toNat) : m = n := by
  cases m with
  | none =>
    cases n with
    | none => rfl
    | some k =>
      have := hn k rfl
      simp only [Option.elim] at h
      omega
  | some j =>
    cases n with
    | none =>
      have := hm j rfl
      simp only [Option.elim] at h
      omega
    | some k => exact congrArg some (UInt64.toNat_inj.1 h)

namespace Tally

theorem mem_of_count?_eq_some {u : Tally} {word : String} {w : Window} {n : UInt64}
    (h : u.count? word w = some n) : ⟨word, n, w⟩ ∈ u.entries := by
  obtain ⟨c, hc, rfl⟩ := Option.map_eq_some_iff.1 h
  have hpair := List.find?_some hc
  simp only [Bool.and_eq_true, decide_eq_true_eq] at hpair
  obtain ⟨rfl, rfl⟩ := hpair
  exact List.mem_of_find?_eq_some hc

/-- The count of a pair is its amount. -/
theorem elim_count? (u : Tally) (word : String) (w : Window) :
    (u.count? word w).elim 0 UInt64.toNat = amount word w u.entries := by
  have hne : u.entries.Pairwise fun a b => (a.word, a.window) ≠ (b.word, b.window) :=
    u.ordered.imp fun hab heq => hab.ne (Prod.mk.inj heq)
  cases hcount : u.count? word w with
  | none =>
    refine (amount_eq_zero fun c hc hpair => ?_).symm
    have hnone := List.find?_eq_none.1 (Option.map_eq_none_iff.1 hcount) c hc
    simp [hpair] at hnone
  | some n => exact (WordCount.amount_of_mem hne (mem_of_count?_eq_some hcount)).symm

end Tally

namespace CountsByWindow

/-! ## The table and the tally -/

/-- The table holds the entries of the tally. -/
structure Holds (t : CountsByWindow) (u : Tally) : Prop where
  wellFormed : t.WellFormed
  snapshot : t.snapshot = u.entries

section
variable {t : CountsByWindow} {u : Tally} (h : t.Holds u)
include h

theorem Holds.positive : u.Positive :=
  fun c hc => positive_snapshot h.wellFormed c (h.snapshot ▸ hc)

theorem holds_count (word : String) (w : Window) : (t.count word w).Holds (u.count word w) := by
  have hafter := wellFormed_count h.wellFormed word w
  refine ⟨hafter, WordCount.eq_of_amount_eq_of_listed (pairwise_snapshot hafter)
    (u.count word w).ordered (positive_snapshot hafter)
    (Tally.positive_count h.positive word w) fun x v => ?_⟩
  have hbefore : amount x v u.entries = (t.count? x v).elim 0 UInt64.toNat := by
    rw [← h.snapshot, amount_snapshot h.wellFormed]
  rw [amount_snapshot hafter, count?_count h.wellFormed, Tally.amount_count, hbefore]
  split
  · cases t.count? x v with
    | none => rfl
    | some n => simp [Tally.toNat_succSaturating]
  · rfl

theorem holds_countAll (word : String) (ws : List Window) :
    (t.countAll word ws).Holds (u.countAll word ws) := by
  induction ws generalizing t u with
  | nil => exact h
  | cons w ws ih => exact ih (holds_count h word w)

theorem count?_eq (word : String) (w : Window) : t.count? word w = u.count? word w := by
  refine eq_of_elim_toNat_eq (fun n hn => ?_) (fun n hn => ?_) ?_
  · obtain ⟨row, hrow, hword⟩ := Option.bind_eq_some_iff.1 hn
    exact (h.wellFormed.filled _ (mem_of_lookup_eq_some hrow)).positive _
      (mem_of_lookup_eq_some hword)
  · exact h.positive _ (Tally.mem_of_count?_eq_some hn)
  · rw [← amount_snapshot h.wellFormed, h.snapshot, Tally.elim_count?]

theorem holds_takeOut (w : Window) : (t.takeOut w).2.Holds (u.takeOut w).2 :=
  ⟨wellFormed_takeOut h.wellFormed w, by rw [snapshot_takeOut_snd, h.snapshot]; rfl⟩

theorem takeOut_fst_eq (w : Window) : (t.takeOut w).1 = (u.takeOut w).1 := by
  rw [takeOut_fst h.wellFormed, h.snapshot]
  rfl

/-- The windows that have a row are those that have an entry. -/
theorem openWindows_eq : t.openWindows = u.openWindows := by
  have hmem : ∀ w, w ∈ t.openWindows ↔ w ∈ u.openWindows := by
    intro w
    rw [Tally.openWindows, Tally.mem_windowsOf, ← h.snapshot, openWindows, List.mem_map,
      List.mem_map]
    constructor
    · rintro ⟨r, hr, rfl⟩
      obtain ⟨p, hp⟩ := List.exists_mem_of_ne_nil _ (h.wellFormed.filled r hr).ne_nil
      have hentry : (⟨p.1, p.2, r.1⟩ : WordCount) ∈ listed r.1 r.2 :=
        perm_listed.mem_iff.2 (List.mem_map_of_mem hp)
      exact ⟨_, List.mem_flatMap.2 ⟨r, hr, hentry⟩, rfl⟩
    · rintro ⟨c, hc, rfl⟩
      obtain ⟨r, hr, hc⟩ := List.mem_flatMap.1 hc
      exact ⟨r, hr, (window_of_mem_listed hc).symm⟩
  have hrows : t.openWindows.Pairwise Window.ListsBefore :=
    List.pairwise_map.2 h.wellFormed.ordered
  exact Window.eq_of_mem_iff_of_listed hrows (Tally.pairwise_windowsOf u.ordered) hmem

theorem windowCount_eq : t.windowCount = u.openWindows.length := by
  rw [← openWindows_eq h, openWindows, List.length_map, windowCount]

theorem size_eq : t.size = u.entries.length := by
  rw [← h.snapshot, snapshot, List.length_flatMap, size]
  congr 1
  refine List.map_congr_left fun r _ => ?_
  rw [perm_listed.length_eq, List.length_map]

theorem isEmpty_eq : t.isEmpty = u.entries.isEmpty := by
  rw [isEmpty, Bool.eq_iff_iff, List.isEmpty_iff, List.isEmpty_iff]
  constructor
  · intro hrows
    rw [← h.snapshot, snapshot, hrows]
    rfl
  · intro hentries
    have hwindows := openWindows_eq h
    rw [Tally.openWindows, hentries] at hwindows
    exact List.map_eq_nil_iff.1 hwindows

end

end CountsByWindow
end WindowTally
