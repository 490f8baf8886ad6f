import WindowTally.Proofs.WordRuns

/-!
# Reading a word again

A word that is read as a text is one word again, the same one, unless a capital dotted I was
in the run that it comes from: that letter is written in lower case with a dot of its own,
which is no word character (`Text.words_stable_iff`). Such a word falls into the pieces
between these dots, and the pieces are words that stay as they are.

Two facts about lower case carry this. Whatever a character becomes is its own lower-case
form, so a second time changes nothing (`Text.lowerAfter_of_lower`), and the dot apart it is
a word character if the character was one (`Text.form_of_wordChar`). Both are facts about the
table of runs: what a run moves lies among the alphanumeric characters afterwards, and
between those that any run moves (`Text.LowerRun.wellPlaced_of_mem`).
-/
namespace WindowTally

/-- Whether the code points from `first` to `last` lie in one of the ranges, which are sought in
order. -/
def CodeRanges.covers : CodeRanges → Nat → Nat → Bool
  | [], _, _ => false
  | (lo, hi) :: rs, first, last =>
    bif hi.blt first then covers rs first last else lo.ble first && last.ble hi

theorem CodeRanges.exists_of_covers {rs : CodeRanges} {first last : Nat}
    (h : rs.covers first last = true) : ∃ r ∈ rs, r.1 ≤ first ∧ last ≤ r.2 := by
  induction rs with
  | nil => cases h
  | cons r rs ih =>
    rw [covers] at h
    cases hlater : r.2.blt first with
    | true =>
      rw [hlater, cond_true] at h
      obtain ⟨r', hr', hcovers⟩ := ih h
      exact ⟨r', List.mem_cons_of_mem _ hr', hcovers⟩
    | false =>
      rw [hlater, cond_false, Bool.and_eq_true, Nat.ble_eq, Nat.ble_eq] at h
      exact ⟨r, List.mem_cons_self, h⟩

namespace Text

/-! ## What runs move, and where to -/

namespace LowerRun

/-- `n` is one of the code points that the run moves. -/
def Moves (r : LowerRun) (n : Nat) : Prop := r.first ≤ n ∧ n ≤ r.last ∧ (n - r.first) % r.step = 0

/-- Where the first code point goes. -/
def newFirst (r : LowerRun) : Nat := (r.first + r.shift).toNat

/-- Where the last code point goes. -/
def newLast (r : LowerRun) : Nat := (r.last + r.shift).toNat

/-- Whether the run moves none of `first`, `first + step`, …, `last`: it lies before or after
them, or moves every other code point and these are the ones between. -/
def spares (r : LowerRun) (first last step : Nat) : Bool :=
  bif last.blt r.first then true
  else bif r.last.blt first then true
  else r.step == 2 && (step == 2 || first == last) && (first + r.first) % 2 == 1

/-- What makes the forms that a run leads to lower-case words: they are alphanumeric, and neither
another run nor the case of the capital dotted I applies to them. -/
def wellPlaced (r : LowerRun) : Bool :=
  decide (0 ≤ r.first + r.shift) && alphanumericRanges.covers r.newFirst r.newLast &&
    (r.newLast.blt 'İ'.toNat || 'İ'.toNat.blt r.newFirst) &&
    lowerRuns.all fun s => s.spares r.newFirst r.newLast r.step

theorem wellPlaced_of_mem : ∀ r ∈ lowerRuns, r.wellPlaced = true := by decide +kernel

variable {r s : LowerRun} {n : Nat}

/-- Where a run moves a code point: as far into its new place as it was into the old one. -/
theorem Moves.image (h : r.Moves n) (hpos : 0 ≤ r.first + r.shift) :
    (n + r.shift).toNat = r.newFirst + (n - r.first) ∧ (n + r.shift).toNat ≤ r.newLast := by
  obtain ⟨hlo, hhi, -⟩ := h
  unfold newFirst newLast
  omega

theorem Moves.not_of_spares (h : r.Moves n) (hpos : 0 ≤ r.first + r.shift)
    (hs : s.spares r.newFirst r.newLast r.step = true) : ¬ s.Moves (n + r.shift).toNat := by
  obtain ⟨hat, hle⟩ := h.image hpos
  obtain ⟨hlo, hhi, hstep⟩ := h
  rintro ⟨hlo', hhi', hstep'⟩
  simp only [spares, Bool.cond_true_left, Bool.or_eq_true, Bool.and_eq_true, Nat.blt_eq,
    beq_iff_eq] at hs
  rcases hs with hbefore | hafter | ⟨⟨htwo, hsame | hsame⟩, hodd⟩
  · omega
  · omega
  · -- both go by two, from starts of which one is odd and one even
    rw [hsame] at hstep
    rw [htwo] at hstep'
    omega
  · rw [htwo] at hstep'
    omega

end LowerRun

open LowerRun

/-- A code point stays where it is, or a run moves it. -/
theorem shiftByRuns_cases (runs : List LowerRun) (n : Nat) : shiftByRuns runs n = n ∨
    ∃ r ∈ runs, r.Moves n ∧ shiftByRuns runs n = (n + r.shift).toNat := by
  induction runs with
  | nil => exact .inl rfl
  | cons r runs ih =>
    rw [shiftByRuns]
    split
    · exact .inl rfl
    · next hlo =>
      split
      · next hhi =>
        split
        · next hstep => exact .inr ⟨r, List.mem_cons_self, ⟨Nat.le_of_not_lt hlo, hhi, hstep⟩, rfl⟩
        · exact .inl rfl
      · obtain hstays | ⟨s, hs, hmoves⟩ := ih
        · exact .inl hstays
        · exact .inr ⟨s, List.mem_cons_of_mem _ hs, hmoves⟩

/-! ## Alphanumeric characters -/

theorem isValidChar_of_mem_alphanumericRanges : ∀ r ∈ alphanumericRanges,
    r.2 < 0xD800 ∨ 0xDFFF < r.1 ∧ r.2 < 0x110000 := by decide +kernel

/-- A code point of the table is the number of a word character. -/
theorem wordChar_of_mem_range {r : Nat × Nat} {n : Nat} (hr : r ∈ alphanumericRanges) (hlo : r.1 ≤ n)
    (hhi : n ≤ r.2) : (Char.ofNat n).toNat = n ∧ isWordChar (Char.ofNat n) = true := by
  have hvalid : n.isValidChar := by
    rcases isValidChar_of_mem_alphanumericRanges r hr with hlow | ⟨hhigh, hmax⟩
    · exact .inl (by omega)
    · exact .inr ⟨by omega, by omega⟩
  have hsorted : alphanumericRanges.sorted = true := by decide +kernel
  have hchar := Utf8.toNat_ofNat hvalid
  refine ⟨hchar, ?_⟩
  rw [isWordChar, hchar, CodeRanges.contains_eq_any hsorted, Bool.or_eq_true, List.any_eq_true]
  exact .inr ⟨r, hr, by simp [hlo, hhi]⟩

/-! ## Lower case is its own lower case -/

/-- A character that is its own lower-case form wherever it stands. -/
structure IsLower (c : Char) : Prop where
  ne_sigma : c ≠ 'Σ'
  form : lowerChar c = [c]

instance (c : Char) : Decidable (IsLower c) :=
  decidable_of_iff (c ≠ 'Σ' ∧ lowerChar c = [c])
    ⟨fun h => ⟨h.1, h.2⟩, fun h => ⟨h.ne_sigma, h.form⟩⟩

/-- What comes after the i in the lower-case form of the capital dotted I. -/
def dotAbove : Char := Char.ofNat 0x307

theorem isWordChar_dotAbove : isWordChar dotAbove = false := by decide +kernel

theorem lowerChar_dotted : lowerChar 'İ' = ['i', dotAbove] := rfl

theorem lowerChar_of_ne {c : Char} (h : c ≠ 'İ') :
    lowerChar c = [Char.ofNat (shiftByRuns lowerRuns c.toNat)] := if_neg h

/-- The lower-case form of any character but two is one character, is its own lower-case form, and
is a word character if the first one is. -/
theorem exists_lower {c : Char} (hsigma : c ≠ 'Σ') (hdotted : c ≠ 'İ') :
    ∃ d, lowerChar c = [d] ∧ IsLower d ∧ (isWordChar c = true → isWordChar d = true) := by
  have hform := lowerChar_of_ne hdotted
  obtain hstays | ⟨r, hr, hmoves, hshift⟩ := shiftByRuns_cases lowerRuns c.toNat
  · rw [hstays, Char.ofNat_toNat] at hform
    exact ⟨c, hform, ⟨hsigma, hform⟩, id⟩
  · have hplaced := wellPlaced_of_mem r hr
    simp only [wellPlaced, Bool.and_eq_true, decide_eq_true_eq, List.all_eq_true, Bool.or_eq_true,
      Nat.blt_eq] at hplaced
    obtain ⟨⟨⟨hpos, hcovers⟩, hnotDotted⟩, hspares⟩ := hplaced
    obtain ⟨hat, hle⟩ := hmoves.image hpos
    obtain ⟨range, hrange, hlo, hhi⟩ := CodeRanges.exists_of_covers hcovers
    obtain ⟨hnat, hword⟩ := wordChar_of_mem_range hrange (n := (c.toNat + r.shift).toNat)
      (by omega) (by omega)
    have hunmoved : ∀ s ∈ lowerRuns, ¬ s.Moves (c.toNat + r.shift).toNat :=
      fun s hs => hmoves.not_of_spares hpos (hspares s hs)
    have hagain : shiftByRuns lowerRuns (c.toNat + r.shift).toNat = (c.toNat + r.shift).toNat := by
      obtain hstays | ⟨s, hs, hmoves', -⟩ := shiftByRuns_cases lowerRuns (c.toNat + r.shift).toNat
      · exact hstays
      · exact absurd hmoves' (hunmoved s hs)
    rw [hshift] at hform
    refine ⟨_, hform, ⟨fun hcapital => ?_, ?_⟩, fun _ => hword⟩
    · -- the table does move the capital sigma
      rw [← hnat, hcapital] at hagain
      exact absurd hagain (by decide +kernel)
    · have hne : Char.ofNat (c.toNat + r.shift).toNat ≠ 'İ' := by
        intro heq
        rw [← heq, hnat] at hnotDotted
        omega
      rw [lowerChar_of_ne hne, hnat, hagain]

theorem lowerAfter_of_lower {before cs : List Char} (h : ∀ c ∈ cs, IsLower c) :
    lowerAfter before cs = cs := by
  induction cs generalizing before with
  | nil => rfl
  | cons c cs ih =>
    have hc := h c List.mem_cons_self
    rw [lowerAfter, if_neg hc.ne_sigma, hc.form, ih fun d hd => h d (List.mem_cons_of_mem _ hd)]
    rfl

/-- A lower-case text is made of lower-case forms of its characters. -/
theorem exists_of_mem_lowerAfter {before cs : List Char} {d : Char} (h : d ∈ lowerAfter before cs) :
    ∃ c ∈ cs, c = 'Σ' ∧ (d = 'ς' ∨ d = 'σ') ∨ c ≠ 'Σ' ∧ d ∈ lowerChar c := by
  induction cs generalizing before with
  | nil => cases h
  | cons c cs ih =>
    rw [lowerAfter, List.mem_append] at h
    rcases h with h | h
    · refine ⟨c, List.mem_cons_self, ?_⟩
      split at h
      · next hc =>
        refine .inl ⟨hc, ?_⟩
        split at h
        · exact .inl (List.mem_singleton.1 h)
        · exact .inr (List.mem_singleton.1 h)
      · next hc => exact .inr ⟨hc, h⟩
    · obtain ⟨c', hc', hform⟩ := ih h
      exact ⟨c', List.mem_cons_of_mem _ hc', hform⟩

/-- What word characters become is in lower case, and again a word character but for the dot of a
capital dotted I. -/
theorem form_of_wordChar {before cs : List Char} {d : Char} (h : d ∈ lowerAfter before cs)
    (hcs : ∀ c ∈ cs, isWordChar c = true) :
    IsLower d ∧ (isWordChar d = true ∨ d = dotAbove ∧ 'İ' ∈ cs) := by
  obtain ⟨c, hc, ⟨-, rfl | rfl⟩ | ⟨hsigma, hd⟩⟩ := exists_of_mem_lowerAfter h
  · exact ⟨by decide +kernel, .inl (by decide +kernel)⟩
  · exact ⟨by decide +kernel, .inl (by decide +kernel)⟩
  · by_cases hdotted : c = 'İ'
    · subst hdotted
      rw [lowerChar_dotted, List.mem_cons, List.mem_singleton] at hd
      rcases hd with rfl | rfl
      · exact ⟨by decide +kernel, .inl (by decide +kernel)⟩
      · exact ⟨by decide +kernel, .inr ⟨rfl, hc⟩⟩
    · obtain ⟨d', hform, hlower, hword⟩ := exists_lower hsigma hdotted
      rw [hform, List.mem_singleton] at hd
      subst hd
      exact ⟨hlower, .inl (hword (hcs c hc))⟩

theorem dotAbove_mem_lowerAfter {before cs : List Char} (h : 'İ' ∈ cs) :
    dotAbove ∈ lowerAfter before cs := by
  induction cs generalizing before with
  | nil => cases h
  | cons c cs ih =>
    rw [lowerAfter, List.mem_append]
    rcases List.mem_cons.1 h with rfl | h
    · rw [if_neg (by decide), lowerChar_dotted]
      exact .inl (List.mem_cons_of_mem _ List.mem_cons_self)
    · exact .inr (ih h)

/-! ## Runs in a word -/

theorem ne_nil_of_mem_wordRuns {cs run : List Char} (h : run ∈ wordRuns cs) : run ≠ [] := by
  rw [wordRuns_eq_filter_splitOnP, List.mem_filter] at h
  simpa using h.2

/-- Nothing but the breaks is left out of the runs. -/
theorem flatten_wordRuns (cs : List Char) : (wordRuns cs).flatten = cs.filter isWordChar := by
  induction cs using runSpans_induction with
  | nil => rfl
  | skips c cs hc ih => rw [wordRuns_break_cons hc, List.filter_cons_of_neg (by simp [hc]), ih]
  | alone c cs hc hnext ih =>
    rw [wordRuns_cons_of_wordAt_eq_false hc hnext, List.filter_cons_of_pos hc, ← ih]
    rfl
  | joins c cs j spans hc hnext hspans ih =>
    cases cs with
    | nil => cases hnext
    | cons d cs =>
      obtain ⟨run, runs, hruns⟩ := exists_wordRuns_cons hnext cs
      rw [wordRuns_cons_cons hc hnext hruns, List.filter_cons_of_pos hc, ← ih, hruns]
      rfl

/-- The characters of the runs are the word characters of the text. -/
theorem exists_mem_wordRuns_iff {cs : List Char} {c : Char} :
    (∃ run ∈ wordRuns cs, c ∈ run) ↔ c ∈ cs ∧ isWordChar c = true := by
  rw [← List.mem_flatten, flatten_wordRuns, List.mem_filter]

/-- Where two tests agree on a text they cut it in the same places. -/
theorem splitOnP_congr {cs : List Char} {p q : Char → Bool} (h : ∀ c ∈ cs, p c = q c) :
    cs.splitOnP p = cs.splitOnP q := by
  induction cs with
  | nil => rfl
  | cons c cs ih =>
    rw [List.splitOnP_cons_eq_if_modifyHead, List.splitOnP_cons_eq_if_modifyHead,
      h c List.mem_cons_self, ih fun d hd => h d (List.mem_cons_of_mem _ hd)]

/-- Word characters alone are one run. -/
theorem wordRuns_of_forall {cs : List Char} (hne : cs ≠ []) (h : ∀ c ∈ cs, isWordChar c = true) :
    wordRuns cs = [cs] := by
  rw [wordRuns_eq_filter_splitOnP, List.splitOnP_eq_singleton fun c hc => by simp [h c hc]]
  simp [hne]

/-- The words of a text in lower case are its runs as they stand. -/
theorem words_of_lower {cs : List Char} (h : ∀ c ∈ cs, IsLower c) :
    words cs = (wordRuns cs).map String.ofList := by
  refine List.map_congr_left fun run hrun => ?_
  rw [lowercase, lowerAfter_of_lower fun c hc => h c (exists_mem_wordRuns_iff.1 ⟨run, hrun, hc⟩).1]

/-- A word of lower-case word characters stays as it is. -/
theorem words_of_stable {cs : List Char} (hne : cs ≠ []) (hlower : ∀ c ∈ cs, IsLower c)
    (hword : ∀ c ∈ cs, isWordChar c = true) : words cs = [String.ofList cs] := by
  rw [words_of_lower hlower, wordRuns_of_forall hne hword]
  rfl

/-! ## Words -/

/-- A word is in lower case, and is made of word characters but for the dots that capital dotted I's
leave. -/
structure IsForm (cs : List Char) : Prop where
  ne_nil : cs ≠ []
  lower : ∀ c ∈ cs, IsLower c
  chars : ∀ c ∈ cs, isWordChar c = true ∨ c = dotAbove

/-- What is listed as a word is the form of a run, with a dot in it just when there is a capital
dotted I in the run. -/
theorem exists_run_of_mem_words {cs : List Char} {word : String} (h : word ∈ words cs) :
    IsForm word.toList ∧ ∃ run ∈ wordRuns cs, String.ofList (lowercase run) = word ∧
      (dotAbove ∈ word.toList ↔ 'İ' ∈ run) := by
  obtain ⟨run, hrun, rfl⟩ := List.mem_map.1 h
  have hform {d : Char} (hd : d ∈ lowercase run) :=
    form_of_wordChar hd fun c hc => (exists_mem_wordRuns_iff.1 ⟨run, hrun, hc⟩).2
  rw [String.toList_ofList]
  refine ⟨⟨lowercase_ne_nil (ne_nil_of_mem_wordRuns hrun), fun c hc => (hform hc).1,
    fun c hc => (hform hc).2.imp_right And.left⟩, run, hrun, rfl, fun hdot => ?_,
    dotAbove_mem_lowerAfter⟩
  rcases (hform hdot).2 with hword | ⟨-, hcapital⟩
  · rw [isWordChar_dotAbove] at hword
    cases hword
  · exact hcapital

section
variable {cs : List Char}

theorem IsForm.forall_wordChar_iff (h : IsForm cs) :
    (∀ c ∈ cs, isWordChar c = true) ↔ dotAbove ∉ cs := by
  refine ⟨fun hall hdot => ?_, fun hdot c hc => (h.chars c hc).resolve_right ?_⟩
  · have hword := hall _ hdot
    rw [isWordChar_dotAbove] at hword
    cases hword
  · rintro rfl
    exact hdot hc

/-- Read again, a word falls into the pieces between its dots. -/
theorem IsForm.words_eq (h : IsForm cs) : words cs =
    ((cs.splitOnP (· = dotAbove)).filter fun piece => !piece.isEmpty).map String.ofList := by
  have hbreak : ∀ c ∈ cs, (!isWordChar c) = decide (c = dotAbove) := by
    intro c hc
    rcases h.chars c hc with hword | rfl
    · rw [hword, eq_comm]
      refine decide_eq_false fun hdot => ?_
      rw [hdot, isWordChar_dotAbove] at hword
      cases hword
    · rw [isWordChar_dotAbove]
      rfl
  rw [words_of_lower h.lower, wordRuns_eq_filter_splitOnP, splitOnP_congr hbreak]

/-- The pieces stay as they are. -/
theorem IsForm.words_of_mem (h : IsForm cs) {piece : String} (hpiece : piece ∈ words cs) :
    words piece.toList = [piece] := by
  rw [words_of_lower h.lower] at hpiece
  obtain ⟨run, hrun, rfl⟩ := List.mem_map.1 hpiece
  have hmem {c : Char} (hc : c ∈ run) := exists_mem_wordRuns_iff.1 ⟨run, hrun, hc⟩
  rw [String.toList_ofList]
  exact words_of_stable (ne_nil_of_mem_wordRuns hrun) (fun c hc => h.lower c (hmem hc).1)
    fun c hc => (hmem hc).2

theorem IsForm.words_eq_self_iff (h : IsForm cs) :
    words cs = [String.ofList cs] ↔ dotAbove ∉ cs := by
  refine ⟨fun hself hdot => ?_, fun hdot => ?_⟩
  · have hmem : String.ofList cs ∈ words cs := hself ▸ List.mem_singleton_self _
    rw [words_of_lower h.lower] at hmem
    obtain ⟨run, hrun, heq⟩ := List.mem_map.1 hmem
    rw [String.ofList_inj] at heq
    subst heq
    have hword := (exists_mem_wordRuns_iff.1 ⟨run, hrun, hdot⟩).2
    rw [isWordChar_dotAbove] at hword
    cases hword
  · exact words_of_stable h.ne_nil h.lower (h.forall_wordChar_iff.2 hdot)

end

/-- A word read again falls into the pieces between the dots of capital dotted I's, so it is the same
word again just when it has none, that is, when it is made of word characters; the pieces are words
that stay as they are. The words of a text all do just when no capital dotted I is in the text. -/
theorem words_stable_iff (cs : List Char) :
    (∀ word ∈ words cs,
      (∀ c ∈ word.toList, isWordChar c = true ∨ c = dotAbove) ∧
      ((∀ c ∈ word.toList, isWordChar c = true) ↔ dotAbove ∉ word.toList) ∧
      (words word.toList = [word] ↔ dotAbove ∉ word.toList) ∧
      words word.toList = ((word.toList.splitOnP (· = dotAbove)).filter fun piece =>
        !piece.isEmpty).map String.ofList ∧
      ∀ piece ∈ words word.toList, words piece.toList = [piece]) ∧
    ((∀ word ∈ words cs, words word.toList = [word]) ↔ 'İ' ∉ cs) := by
  refine ⟨fun word hword => ?_, fun hall hcapital => ?_, fun hcapital word hword => ?_⟩
  · obtain ⟨hform, -⟩ := exists_run_of_mem_words hword
    have hself := hform.words_eq_self_iff
    rw [String.ofList_toList] at hself
    exact ⟨hform.chars, hform.forall_wordChar_iff, hself, hform.words_eq,
      fun piece => hform.words_of_mem⟩
  · obtain ⟨run, hrun, hmem⟩ := exists_mem_wordRuns_iff.2 ⟨hcapital, by decide +kernel⟩
    have hword : String.ofList (lowercase run) ∈ words cs := List.mem_map_of_mem hrun
    obtain ⟨hform, -⟩ := exists_run_of_mem_words hword
    have hself := hall _ hword
    rw [String.toList_ofList] at hform hself
    exact hform.words_eq_self_iff.1 hself (dotAbove_mem_lowerAfter hmem)
  · obtain ⟨hform, run, hrun, -, hdot⟩ := exists_run_of_mem_words hword
    have hself := hform.words_eq_self_iff
    rw [String.ofList_toList] at hself
    refine hself.2 fun hmem => hcapital (exists_mem_wordRuns_iff.1 ⟨run, hrun, hdot.1 hmem⟩).1

/-- A capital dotted I is read as one word of two characters, of which the second is no word
character. Read again, the word has lost it. -/
theorem dotted_word_split :
    words ['İ'] = [String.ofList ['i', dotAbove]] ∧ isWordChar dotAbove = false ∧
    words ['i', dotAbove] = ["i"] ∧
    ¬ ∀ cs, ∀ word ∈ words cs,
      (∀ c ∈ word.toList, isWordChar c = true) ∧ words word.toList = [word] := by
  have hword : words ['İ'] = [String.ofList ['i', dotAbove]] := by decide +kernel
  refine ⟨hword, isWordChar_dotAbove, by decide +kernel, fun hall => ?_⟩
  obtain ⟨hchars, -⟩ := hall ['İ'] _ (hword ▸ List.mem_singleton_self _)
  have hdot := hchars dotAbove (by decide)
  rw [isWordChar_dotAbove] at hdot
  cases hdot

end Text

end WindowTally
