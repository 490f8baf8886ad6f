/-!
# Lists in strict order

A finite set or table kept as a list in strict order of `lt`. `Ordered.put` adds an
entry at its place or, where an entry of the same rank stands already, changes
that one; order is kept (`pairwise_put`).
-/
namespace WindowTally.Ordered

variable {α : Type}

/-- Put `new` at its place in `l`; an entry that is neither before nor after it is changed by
`merge` instead. -/
def put (lt : α → α → Prop) [DecidableRel lt] (new : α) (merge : α → α) : List α → List α
  | [] => [new]
  | b :: l =>
    if lt new b then new :: b :: l
    else if lt b new then b :: put lt new merge l
    else merge b :: l

theorem mem_put {lt : α → α → Prop} [DecidableRel lt] {new : α} {merge : α → α} {l : List α}
    {x : α} (h : x ∈ put lt new merge l) : x = new ∨ x ∈ l ∨ ∃ y ∈ l, x = merge y := by
  induction l with
  | nil => exact .inl (List.mem_singleton.1 h)
  | cons b l ih =>
    simp only [put] at h
    split at h
    · rcases List.mem_cons.1 h with h | h
      · exact .inl h
      · exact .inr (.inl h)
    · split at h
      · rcases List.mem_cons.1 h with h | h
        · exact .inr (.inl (h ▸ List.mem_cons_self))
        · rcases ih h with h | h | ⟨y, hy, h⟩
          · exact .inl h
          · exact .inr (.inl (List.mem_cons_of_mem _ h))
          · exact .inr (.inr ⟨y, List.mem_cons_of_mem _ hy, h⟩)
      · rcases List.mem_cons.1 h with h | h
        · exact .inr (.inr ⟨b, List.mem_cons_self, h⟩)
        · exact .inr (.inl (List.mem_cons_of_mem _ h))

/-- Putting an entry keeps the order, if a changed entry keeps its rank. -/
theorem pairwise_put {lt : α → α → Prop} [DecidableRel lt] {new : α} {merge : α → α}
    (trans : ∀ {a b c}, lt a b → lt b c → lt a c)
    (left : ∀ {a b}, lt a b → lt (merge a) b) (right : ∀ {a b}, lt a b → lt a (merge b))
    {l : List α} (h : l.Pairwise lt) : (put lt new merge l).Pairwise lt := by
  induction l with
  | nil => exact List.pairwise_singleton _ _
  | cons b l ih =>
    have hb := (List.pairwise_cons.1 h).1
    have hl := (List.pairwise_cons.1 h).2
    simp only [put]
    split
    · next hnb =>
      refine List.pairwise_cons.2 ⟨fun x hx => ?_, h⟩
      rcases List.mem_cons.1 hx with rfl | hx
      · exact hnb
      · exact trans hnb (hb x hx)
    · split
      · next hbn =>
        refine List.pairwise_cons.2 ⟨fun x hx => ?_, ih hl⟩
        rcases mem_put hx with rfl | hx | ⟨y, hy, rfl⟩
        · exact hbn
        · exact hb x hx
        · exact right (hb y hy)
      · exact List.pairwise_cons.2 ⟨fun x hx => left (hb x hx), hl⟩

end WindowTally.Ordered
