import WindowTally.Proofs.Utf8
import WindowTally.Text.Words

/-!
# Words on both sides of a break

A break, a character that no word has in it, separates runs: what stands before it and what
stands after it have the words that they have alone (`Text.words_append_cons`). So the words
of a text can be read piece by piece, wherever the text is cut at a break.
-/
namespace WindowTally.Text

/-! ## How a run begins -/

section
variable {c d : Char}

/-- A break begins no run. -/
theorem wordRuns_break_cons (hc : isWordChar c = false) (cs : List Char) :
    wordRuns (c :: cs) = wordRuns cs := by
  simp [wordRuns, hc]

/-- A word character before a break is a run of its own. -/
theorem wordRuns_cons_break_cons (hd : isWordChar d = true) (hc : isWordChar c = false)
    (cs : List Char) : wordRuns (d :: c :: cs) = [d] :: wordRuns cs := by
  rw [wordRuns.eq_def]
  simp only [hd, if_true, wordRuns_break_cons hc]
  cases wordRuns cs with
  | nil => rfl
  | cons run runs => simp [hc]

theorem exists_wordRuns_cons (hc : isWordChar c = true) (cs : List Char) :
    ∃ run runs, wordRuns (c :: cs) = run :: runs := by
  rw [wordRuns.eq_def]
  simp only [hc, if_true]
  split
  · split
    · exact ⟨_, _, rfl⟩
    · exact ⟨_, _, rfl⟩
  · exact ⟨_, _, rfl⟩

/-- A word character joins the run that begins after it. -/
theorem wordRuns_cons_cons (hd : isWordChar d = true) (hc : isWordChar c = true) {cs : List Char}
    {run : List Char} {runs : List (List Char)} (hruns : wordRuns (c :: cs) = run :: runs) :
    wordRuns (d :: c :: cs) = (d :: run) :: runs := by
  rw [wordRuns.eq_def]
  simp only [hd, if_true, hruns, hc]

end

/-! ## Cutting at a break -/

/-- No run goes past a break. -/
theorem wordRuns_append_cons {c : Char} (hc : isWordChar c = false) (xs ys : List Char) :
    wordRuns (xs ++ c :: ys) = wordRuns xs ++ wordRuns ys := by
  induction xs with
  | nil => exact wordRuns_break_cons hc ys
  | cons d xs ih =>
    cases hd : isWordChar d with
    | false => rw [List.cons_append, wordRuns_break_cons hd, wordRuns_break_cons hd, ih]
    | true =>
      -- the character after `d` tells whether the run goes on
      cases xs with
      | nil =>
        have hone : wordRuns [d] = [[d]] := by simp [wordRuns, hd]
        rw [List.cons_append, List.nil_append, wordRuns_cons_break_cons hd hc, hone]
        rfl
      | cons e xs =>
        rw [List.cons_append] at ih ⊢
        rw [List.cons_append]
        cases he : isWordChar e with
        | false =>
          rw [wordRuns_break_cons he, wordRuns_break_cons he] at ih
          rw [wordRuns_cons_break_cons hd he, wordRuns_cons_break_cons hd he, ih]
          rfl
        | true =>
          obtain ⟨run, runs, hruns⟩ := exists_wordRuns_cons he xs
          rw [hruns] at ih
          rw [wordRuns_cons_cons hd he hruns, wordRuns_cons_cons hd he ih]
          rfl

theorem words_append_cons {c : Char} (hc : isWordChar c = false) (xs ys : List Char) :
    words (xs ++ c :: ys) = words xs ++ words ys := by
  rw [words, wordRuns_append_cons hc, List.map_append]
  rfl

/-- A text has the same words without a break at its end. -/
theorem words_concat {c : Char} (hc : isWordChar c = false) (cs : List Char) :
    words (cs ++ [c]) = words cs := by
  rw [words_append_cons hc]
  exact List.append_nil _

/-- The payload that encodes a text has the words of the text. -/
theorem wordsOfBytes_encode (cs : List Char) : wordsOfBytes (Utf8.encode cs) = some (words cs) := by
  rw [wordsOfBytes, Utf8.decode_encode]

end WindowTally.Text
