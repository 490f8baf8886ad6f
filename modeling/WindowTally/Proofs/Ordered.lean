import WindowTally.Ordered

/-!
# What putting does to an ordered list

`Ordered.put_split` says once what `Ordered.put` can do to a list in strict
order: either nothing in it has the rank of the new entry, and the new entry goes
in between, or exactly one entry has that rank, and it is changed in place. What
later modules need of members (`mem_put_iff`), of selections (`filter_put`) and
of totals is read off from there.
-/
namespace WindowTally.Ordered

variable {α : Type} {lt : α → α → Prop} [DecidableRel lt] {l : List α}

/-- Putting either inserts the new entry between entries of other ranks or changes the one entry
of its rank. -/
theorem put_split (trans : ∀ a b c, lt a b → lt b c → lt a c) (h : l.Pairwise lt) (new : α)
    (merge : α → α) :
    (∃ before after, l = before ++ after ∧ put lt new merge l = before ++ new :: after ∧
      ∀ b ∈ l, lt new b ∨ lt b new) ∨
    (∃ before b after, l = before ++ b :: after ∧
      put lt new merge l = before ++ merge b :: after ∧ ¬ lt new b ∧ ¬ lt b new) := by
  induction l with
  | nil => exact .inl ⟨[], [], rfl, rfl, by simp⟩
  | cons b l ih =>
    obtain ⟨hb, hl⟩ := List.pairwise_cons.1 h
    simp only [put]
    split
    · next hnb =>
      refine .inl ⟨[], b :: l, rfl, rfl, ?_⟩
      intro c hc
      rcases List.mem_cons.1 hc with rfl | hc
      · exact .inl hnb
      · exact .inl (trans _ _ _ hnb (hb c hc))
    · next hnb =>
      split
      · next hbn =>
        rcases ih hl with ⟨before, after, hl', hput, hrank⟩ | ⟨before, c, after, hl', hput, h1, h2⟩
        · refine .inl ⟨b :: before, after, by rw [hl']; rfl, by rw [hput]; rfl, ?_⟩
          intro c hc
          rcases List.mem_cons.1 hc with rfl | hc
          · exact .inr hbn
          · exact hrank c hc
        · exact .inr ⟨b :: before, c, after, by rw [hl']; rfl, by rw [hput]; rfl, h1, h2⟩
      · next hbn => exact .inr ⟨[], b, l, rfl, rfl, hnb, hbn⟩

theorem length_put_le (new : α) (merge : α → α) (l : List α) :
    (put lt new merge l).length ≤ l.length + 1 := by
  induction l with
  | nil => exact Nat.le_refl _
  | cons b l ih =>
    simp only [put]
    split
    · exact Nat.le_refl _
    · split
      · exact Nat.succ_le_succ ih
      · exact Nat.le_succ _

/-- Where an entry of the new one's rank is the new one, putting adds a member. -/
theorem mem_put_iff (trans : ∀ a b c, lt a b → lt b c → lt a c)
    (tri : ∀ a b, ¬ lt a b → ¬ lt b a → a = b) (h : l.Pairwise lt) {new x : α} :
    x ∈ put lt new (fun v => v) l ↔ x = new ∨ x ∈ l := by
  rcases put_split trans h new (fun v => v) with
    ⟨before, after, hl, hput, -⟩ | ⟨before, b, after, hl, hput, h1, h2⟩
  · rw [hput, hl]
    simp only [List.mem_append, List.mem_cons]
    exact or_left_comm
  · rw [hput, hl, tri _ _ h1 h2]
    simp only [List.mem_append, List.mem_cons]
    constructor
    · exact .inr
    · rintro (rfl | hx)
      · exact .inr (.inl rfl)
      · exact hx

/-- A member is there already, and putting it changes nothing. -/
theorem put_of_mem (trans : ∀ a b c, lt a b → lt b c → lt a c) (irrefl : ∀ a, ¬ lt a a)
    (h : l.Pairwise lt) {x : α} (hx : x ∈ l) : put lt x (fun v => v) l = l := by
  rcases put_split trans h x (fun v => v) with
    ⟨before, after, hl, hput, hrank⟩ | ⟨before, b, after, hl, hput, -, -⟩
  · exact absurd (hrank x hx) (by simp [irrefl])
  · rw [hput, hl]

/-- Putting an entry that a selection leaves out does not change what is selected. -/
theorem filter_put (trans : ∀ a b c, lt a b → lt b c → lt a c) (h : l.Pairwise lt) {new : α}
    {merge : α → α} {p : α → Bool} (hnew : p new = false)
    (hrank : ∀ b, ¬ lt new b → ¬ lt b new → p b = false ∧ p (merge b) = false) :
    (put lt new merge l).filter p = l.filter p := by
  rcases put_split trans h new merge with
    ⟨before, after, hl, hput, -⟩ | ⟨before, b, after, hl, hput, h1, h2⟩
  · rw [hput, hl, List.filter_append, List.filter_append, List.filter_cons_of_neg (by simp [hnew])]
  · obtain ⟨hb, hm⟩ := hrank b h1 h2
    rw [hput, hl, List.filter_append, List.filter_append, List.filter_cons_of_neg (by simp [hm]),
      List.filter_cons_of_neg (by simp [hb])]

end WindowTally.Ordered
