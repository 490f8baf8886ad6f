/-!
# Sets of code points as sorted ranges

A property of characters is given as a list of closed ranges of code points in
increasing order. `CodeRanges.contains` stops at the first range that lies
beyond the code point (`contains_eq_any` for sorted lists).

One such property is kept here, white space in the sense of Unicode's White_Space
property, which includes the no-break and ideographic spaces. Text that holds
nothing else is blank.
-/
namespace WindowTally

/-- Closed ranges of code points, in increasing order. -/
abbrev CodeRanges := List (Nat × Nat)

namespace CodeRanges

/-- Whether `n` lies in one of the ranges. -/
def contains : CodeRanges → Nat → Bool
  | [], _ => false
  | (lo, hi) :: rs, n => if n < lo then false else if n ≤ hi then true else contains rs n

/-- Each range is nonempty and ends before the next one starts. -/
def sorted : CodeRanges → Bool
  | [] => true
  | [(lo, hi)] => decide (lo ≤ hi)
  | (lo, hi) :: (lo', hi') :: rs =>
    decide (lo ≤ hi) && decide (hi < lo') && sorted ((lo', hi') :: rs)

theorem sorted_tail {r : Nat × Nat} {rs : CodeRanges} (h : sorted (r :: rs) = true) :
    sorted rs = true := by
  cases rs with
  | nil => rfl
  | cons s rs => simp only [sorted, Bool.and_eq_true] at h; exact h.2

theorem lt_of_sorted {r : Nat × Nat} {rs : CodeRanges} (h : sorted (r :: rs) = true) :
    ∀ s ∈ rs, r.2 < s.1 := by
  induction rs generalizing r with
  | nil => simp
  | cons s rs ih =>
    simp only [sorted, Bool.and_eq_true, decide_eq_true_eq] at h
    intro u hu
    rcases List.mem_cons.1 hu with rfl | hu
    · exact h.1.2
    · have hsu := ih h.2 u hu
      have hs : s.1 ≤ s.2 := by
        cases rs with
        | nil => simpa [sorted] using h.2
        | cons v rs =>
          have := h.2
          simp only [sorted, Bool.and_eq_true, decide_eq_true_eq] at this
          exact this.1.1
      omega

/-- In sorted ranges the early stop misses nothing. -/
theorem contains_eq_any {rs : CodeRanges} (h : sorted rs = true) (n : Nat) :
    contains rs n = rs.any fun r => decide (r.1 ≤ n) && decide (n ≤ r.2) := by
  induction rs with
  | nil => rfl
  | cons r rs ih =>
    have hlt := lt_of_sorted h
    rw [List.any_cons, ← ih (sorted_tail h), contains]
    by_cases hlo : n < r.1
    · rw [if_pos hlo, decide_eq_false (by omega), Bool.false_and, Bool.false_or]
      rw [ih (sorted_tail h), eq_comm, List.any_eq_false]
      intro s hs
      have hrs := hlt s hs
      have hr : r.1 ≤ r.2 := by
        cases rs with
        | nil => cases hs
        | cons v rs =>
          simp only [sorted, Bool.and_eq_true, decide_eq_true_eq] at h
          exact h.1.1
      simp only [Bool.and_eq_true, decide_eq_true_eq]
      omega
    · rw [if_neg hlo]
      by_cases hhi : n ≤ r.2
      · rw [if_pos hhi, decide_eq_true (by omega), decide_eq_true hhi]
        rfl
      · rw [if_neg hhi, decide_eq_false hhi, Bool.and_false, Bool.false_or]

end CodeRanges

namespace Text

/-- The white-space characters. -/
def whiteSpaceRanges : CodeRanges := [
  (0x9, 0xd), (0x20, 0x20), (0x85, 0x85), (0xa0, 0xa0), (0x1680, 0x1680), (0x2000, 0x200a),
  (0x2028, 0x2029), (0x202f, 0x202f), (0x205f, 0x205f), (0x3000, 0x3000)]

/-- Whether a character is white space. -/
def isWhiteSpace (c : Char) : Bool := whiteSpaceRanges.contains c.toNat

/-- Whether there is nothing but white space. -/
def isBlank (s : String) : Bool := s.toList.all isWhiteSpace

/-- The text without the white space at both ends. -/
def trim (cs : List Char) : List Char :=
  ((cs.dropWhile isWhiteSpace).reverse.dropWhile isWhiteSpace).reverse

end Text

end WindowTally
