import WindowTally.Proofs.Words

/-!
# Words are the maximal runs

`Text.IsRun` says which stretches of a text are maximal runs of word characters, by the
places where they begin and end. `Text.runSpans` lists these places in order
(`Text.mem_runSpans`, `Text.pairwise_runSpans`), and the runs that are read are those that
stand there (`Text.wordRuns_eq_map_extract`). They are as well what is left of the pieces
between the breaks once the empty ones are dropped (`Text.wordRuns_eq_filter_splitOnP`).

So a word depends on its own characters only, and a payload has words to list just when it
is the UTF-8 form of some string (`Text.words_are_runs`).
-/
namespace WindowTally.Text

/-! ## Runs and their places -/

/-- Whether a word character stands at `k`. -/
def wordAt (cs : List Char) (k : Nat) : Bool := cs[k]?.any isWordChar

/-- The characters from `i` to `j` are a maximal run of word characters. -/
structure IsRun (cs : List Char) (i j : Nat) : Prop where
  nonempty : i < j
  inside : ∀ k, i ≤ k → k < j → wordAt cs k = true
  before : ∀ k, k + 1 = i → wordAt cs k = false
  after : wordAt cs j = false

/-- The places one character further on. -/
def shift (span : Nat × Nat) : Nat × Nat := (span.1 + 1, span.2 + 1)

/-- Where the maximal runs begin and end, in order. -/
def runSpans : List Char → List (Nat × Nat)
  | [] => []
  | c :: cs =>
    let spans := (runSpans cs).map shift
    if !isWordChar c then spans
    else if wordAt cs 0 then spans.modifyHead fun span => (0, span.2)
    else (0, 1) :: spans

section
variable {cs : List Char} {i j : Nat}

/-- Of two runs the one that begins first ends before the other begins. -/
theorem IsRun.lt_of_lt {i' j' : Nat} (h : IsRun cs i j) (h' : IsRun cs i' j') (hlt : i < i') :
    j < i' := by
  by_contra hle
  have hword := h.inside (i' - 1) (by omega) (by omega)
  rw [h'.before (i' - 1) (by omega)] at hword
  cases hword

theorem IsRun.eq_of_start {j' : Nat} (h : IsRun cs i j) (h' : IsRun cs i j') : j = j' := by
  have hle {m n : Nat} (hm : IsRun cs i m) (hn : IsRun cs i n) : m ≤ n := by
    by_contra hlt
    have hword := hm.inside n (Nat.le_of_lt hn.nonempty) (by omega)
    rw [hn.after] at hword
    cases hword
  exact Nat.le_antisymm (hle h h') (hle h' h)

variable {c : Char}

@[simp]
theorem wordAt_cons_zero : wordAt (c :: cs) 0 = isWordChar c := rfl

@[simp]
theorem wordAt_cons_succ (k : Nat) : wordAt (c :: cs) (k + 1) = wordAt cs k := by
  simp [wordAt]

/-- A run further on is one of what follows, unless it begins there only because the first character
is left out. -/
theorem isRun_cons_succ : IsRun (c :: cs) (i + 1) (j + 1) ↔
    IsRun cs i j ∧ (i = 0 → isWordChar c = false) := by
  constructor
  · intro h
    refine ⟨⟨Nat.lt_of_succ_lt_succ h.nonempty, fun k hik hkj => ?_, ?_, ?_⟩, ?_⟩
    · simpa using h.inside (k + 1) (by omega) (by omega)
    · rintro k rfl
      simpa using h.before (k + 1) rfl
    · simpa using h.after
    · rintro rfl
      exact h.before 0 rfl
  · rintro ⟨h, hc⟩
    refine ⟨Nat.succ_lt_succ h.nonempty, fun k hik hkj => ?_, ?_, ?_⟩
    · obtain ⟨k, rfl⟩ := Nat.exists_eq_add_one_of_ne_zero (n := k) (by omega)
      simpa using h.inside k (by omega) (by omega)
    · intro k hk
      cases k with
      | zero => exact hc (by omega)
      | succ k => simpa using h.before k (by omega)
    · simpa using h.after

/-- A run at the start is the first character and the run after it, if there is one. -/
theorem isRun_cons_zero : IsRun (c :: cs) 0 (j + 1) ↔
    isWordChar c = true ∧ (j = 0 ∧ wordAt cs 0 = false ∨ IsRun cs 0 j) := by
  constructor
  · intro h
    refine ⟨h.inside 0 (Nat.le_refl _) h.nonempty, ?_⟩
    have hafter : wordAt cs j = false := by simpa using h.after
    rcases Nat.eq_zero_or_pos j with rfl | hj
    · exact .inl ⟨rfl, hafter⟩
    · refine .inr ⟨hj, fun k _ hkj => ?_, fun k hk => absurd hk (by omega), hafter⟩
      simpa using h.inside (k + 1) (by omega) (by omega)
  · rintro ⟨hc, hrest⟩
    refine ⟨Nat.succ_pos j, fun k _ hkj => ?_, fun k hk => absurd hk (by omega), ?_⟩
    · cases k with
      | zero => exact hc
      | succ k =>
        rcases hrest with ⟨rfl, -⟩ | hrun
        · omega
        · simpa using hrun.inside k (Nat.zero_le _) (by omega)
    · rcases hrest with ⟨rfl, hafter⟩ | hrun
      · simpa using hafter
      · simpa using hrun.after

/-- A run begins at the start or further on. -/
theorem IsRun.cons_cases (h : IsRun (c :: cs) i j) :
    (∃ j', i = 0 ∧ j = j' + 1 ∧ isWordChar c = true ∧
      (j' = 0 ∧ wordAt cs 0 = false ∨ IsRun cs 0 j')) ∨
    ∃ i' j', i = i' + 1 ∧ j = j' + 1 ∧ IsRun cs i' j' ∧ (i' = 0 → isWordChar c = false) := by
  obtain ⟨j, rfl⟩ := Nat.exists_eq_add_one_of_ne_zero (Nat.ne_of_gt (Nat.zero_lt_of_lt h.nonempty))
  cases i with
  | zero => exact .inl ⟨j, rfl, rfl, isRun_cons_zero.1 h⟩
  | succ i => exact .inr ⟨i, j, rfl, rfl, isRun_cons_succ.1 h⟩

/-! ## The places are listed -/

theorem runSpans_break_cons (hc : isWordChar c = false) (cs : List Char) :
    runSpans (c :: cs) = (runSpans cs).map shift := by
  simp [runSpans, hc]

/-- A word character that no other follows is a run of its own. -/
theorem runSpans_cons_of_wordAt_eq_false (hc : isWordChar c = true) (hnext : wordAt cs 0 = false) :
    runSpans (c :: cs) = (0, 1) :: (runSpans cs).map shift := by
  simp [runSpans, hc, hnext]

/-- A word character joins the run that begins after it. -/
theorem runSpans_cons_cons (hc : isWordChar c = true) (hnext : wordAt cs 0 = true)
    {spans : List (Nat × Nat)} (hspans : runSpans cs = (0, j) :: spans) :
    runSpans (c :: cs) = (0, j + 1) :: spans.map shift := by
  simp [runSpans, hc, hnext, hspans, shift]

/-- What begins with a word character begins with a run. -/
theorem exists_runSpans_cons (h : wordAt cs 0 = true) :
    ∃ j spans, runSpans cs = (0, j) :: spans := by
  induction cs with
  | nil => cases h
  | cons c cs ih =>
    cases hnext : wordAt cs 0 with
    | false => exact ⟨_, _, runSpans_cons_of_wordAt_eq_false h hnext⟩
    | true =>
      obtain ⟨j, spans, hspans⟩ := ih hnext
      exact ⟨_, _, runSpans_cons_cons h hnext hspans⟩

/-- A text is empty, or begins with a break, with a run of one character, or with a character that
joins the run after it. -/
theorem runSpans_induction {motive : List Char → Prop} (nil : motive [])
    (skips : ∀ c cs, isWordChar c = false → motive cs → motive (c :: cs))
    (alone : ∀ c cs, isWordChar c = true → wordAt cs 0 = false → motive cs → motive (c :: cs))
    (joins : ∀ c cs j spans, isWordChar c = true → wordAt cs 0 = true →
      runSpans cs = (0, j) :: spans → motive cs → motive (c :: cs)) (cs : List Char) :
    motive cs := by
  induction cs with
  | nil => exact nil
  | cons c cs ih =>
    cases hc : isWordChar c with
    | false => exact skips c cs hc ih
    | true =>
      cases hnext : wordAt cs 0 with
      | false => exact alone c cs hc hnext ih
      | true =>
        obtain ⟨j, spans, hspans⟩ := exists_runSpans_cons hnext
        exact joins c cs j spans hc hnext hspans ih

theorem starts_runSpans (cs : List Char) : (runSpans cs).Pairwise fun p q => p.1 < q.1 := by
  have hshift {spans : List (Nat × Nat)} (h : spans.Pairwise fun p q => p.1 < q.1) :
      (spans.map shift).Pairwise fun p q => p.1 < q.1 :=
    List.pairwise_map.2 (h.imp fun {p q} hlt => (Nat.succ_lt_succ hlt : p.1 + 1 < q.1 + 1))
  have hfirst (j : Nat) (spans : List (Nat × Nat)) :
      ∀ q ∈ spans.map shift, (0, j).1 < q.1 := by
    intro q hq
    obtain ⟨p, -, rfl⟩ := List.mem_map.1 hq
    exact Nat.succ_pos _
  induction cs using runSpans_induction with
  | nil => exact .nil
  | skips c cs hc ih =>
    rw [runSpans_break_cons hc]
    exact hshift ih
  | alone c cs hc hnext ih =>
    rw [runSpans_cons_of_wordAt_eq_false hc hnext]
    exact List.pairwise_cons.2 ⟨hfirst 1 _, hshift ih⟩
  | joins c cs j spans hc hnext hspans ih =>
    rw [runSpans_cons_cons hc hnext hspans]
    rw [hspans] at ih
    exact List.pairwise_cons.2 ⟨hfirst (j + 1) _, hshift ih.of_cons⟩

theorem isRun_of_mem_runSpans {span : Nat × Nat} (h : span ∈ runSpans cs) :
    IsRun cs span.1 span.2 := by
  induction cs using runSpans_induction generalizing span with
  | nil => cases h
  | skips c cs hc ih =>
    rw [runSpans_break_cons hc] at h
    obtain ⟨span, hspan, rfl⟩ := List.mem_map.1 h
    exact isRun_cons_succ.2 ⟨ih hspan, fun _ => hc⟩
  | alone c cs hc hnext ih =>
    rw [runSpans_cons_of_wordAt_eq_false hc hnext] at h
    rcases List.mem_cons.1 h with rfl | h
    · exact isRun_cons_zero.2 ⟨hc, .inl ⟨rfl, hnext⟩⟩
    · obtain ⟨span, hspan, rfl⟩ := List.mem_map.1 h
      refine isRun_cons_succ.2 ⟨ih hspan, fun hstart => ?_⟩
      have hfirst := (ih hspan).inside span.1 (Nat.le_refl _) (ih hspan).nonempty
      rw [hstart, hnext] at hfirst
      cases hfirst
  | joins c cs j spans hc hnext hspans ih =>
    have hstarts := hspans ▸ starts_runSpans cs
    rw [runSpans_cons_cons hc hnext hspans] at h
    rw [hspans] at ih
    rcases List.mem_cons.1 h with rfl | h
    · exact isRun_cons_zero.2 ⟨hc, .inr (ih List.mem_cons_self)⟩
    · obtain ⟨span, hspan, rfl⟩ := List.mem_map.1 h
      have hlater : 0 < span.1 := List.rel_of_pairwise_cons hstarts hspan
      exact isRun_cons_succ.2 ⟨ih (List.mem_cons_of_mem _ hspan), fun hstart => by omega⟩

theorem mem_runSpans_of_isRun (h : IsRun cs i j) : (i, j) ∈ runSpans cs := by
  induction cs using runSpans_induction generalizing i j with
  | nil => cases h.inside i (Nat.le_refl _) h.nonempty
  | skips c cs hc ih =>
    rw [runSpans_break_cons hc]
    rcases h.cons_cases with ⟨j, rfl, rfl, hword, -⟩ | ⟨i, j, rfl, rfl, hrun, -⟩
    · rw [hc] at hword
      cases hword
    · exact List.mem_map_of_mem (ih hrun)
  | alone c cs hc hnext ih =>
    rw [runSpans_cons_of_wordAt_eq_false hc hnext]
    rcases h.cons_cases with ⟨j, rfl, rfl, -, ⟨rfl, -⟩ | hrun⟩ | ⟨i, j, rfl, rfl, hrun, -⟩
    · exact List.mem_cons_self
    · rw [hrun.inside 0 (Nat.le_refl _) hrun.nonempty] at hnext
      cases hnext
    · exact List.mem_cons_of_mem _ (List.mem_map_of_mem (ih hrun))
  | joins c cs j' spans hc hnext hspans ih =>
    rw [runSpans_cons_cons hc hnext hspans]
    rcases h.cons_cases with ⟨j, rfl, rfl, -, ⟨-, hbreak⟩ | hrun⟩ | ⟨i, j, rfl, rfl, hrun, hfirst⟩
    · rw [hnext] at hbreak
      cases hbreak
    · have hjoined : IsRun cs 0 j' := isRun_of_mem_runSpans (hspans ▸ List.mem_cons_self)
      rw [hrun.eq_of_start hjoined]
      exact List.mem_cons_self
    · rcases List.mem_cons.1 (hspans ▸ ih hrun) with heq | hlater
      · -- only a break leaves a run to begin right after it
        rw [hfirst (Prod.mk.inj heq).1] at hc
        cases hc
      · exact List.mem_cons_of_mem _ (List.mem_map_of_mem hlater)

/-- The places are those of the maximal runs. -/
theorem mem_runSpans : (i, j) ∈ runSpans cs ↔ IsRun cs i j :=
  ⟨isRun_of_mem_runSpans, mem_runSpans_of_isRun⟩

/-- A run ends before the next one begins. -/
theorem pairwise_runSpans (cs : List Char) : (runSpans cs).Pairwise fun p q => p.2 < q.1 :=
  (starts_runSpans cs).imp_of_mem fun hp hq hlt =>
    (isRun_of_mem_runSpans hp).lt_of_lt (isRun_of_mem_runSpans hq) hlt

/-! ## What stands there -/

/-- A word character that no other follows is a run of its own. -/
theorem wordRuns_cons_of_wordAt_eq_false (hc : isWordChar c = true) (hnext : wordAt cs 0 = false) :
    wordRuns (c :: cs) = [c] :: wordRuns cs := by
  cases cs with
  | nil => simp [wordRuns, hc]
  | cons d cs => rw [wordRuns_cons_break_cons hc hnext, wordRuns_break_cons hnext]

theorem map_extract_shift (cs : List Char) (spans : List (Nat × Nat)) :
    (spans.map shift).map (fun span => (c :: cs).extract span.1 span.2) =
      spans.map fun span => cs.extract span.1 span.2 := by
  rw [List.map_map]
  refine List.map_congr_left fun span _ => ?_
  simp [shift, List.extract]

/-- The runs are what stands at their places. -/
theorem wordRuns_eq_map_extract (cs : List Char) :
    wordRuns cs = (runSpans cs).map fun span => cs.extract span.1 span.2 := by
  induction cs using runSpans_induction with
  | nil => rfl
  | skips c cs hc ih =>
    rw [wordRuns_break_cons hc, runSpans_break_cons hc, map_extract_shift, ih]
  | alone c cs hc hnext ih =>
    rw [wordRuns_cons_of_wordAt_eq_false hc hnext, runSpans_cons_of_wordAt_eq_false hc hnext,
      List.map_cons, map_extract_shift, ih]
    rfl
  | joins c cs j spans hc hnext hspans ih =>
    rw [runSpans_cons_cons hc hnext hspans, List.map_cons, map_extract_shift]
    rw [hspans, List.map_cons] at ih
    cases cs with
    | nil => cases hnext
    | cons d cs =>
      rw [wordRuns_cons_cons hc hnext ih]
      rfl

/-- The first piece is empty unless the text begins with a run. -/
theorem isEmpty_of_splitOnP {piece : List Char} {pieces : List (List Char)}
    (h : (cs.splitOnP fun c => !isWordChar c) = piece :: pieces) :
    piece.isEmpty = !wordAt cs 0 := by
  cases cs with
  | nil =>
    cases h
    rfl
  | cons c cs =>
    obtain ⟨first, rest, hrest⟩ :=
      List.exists_cons_of_ne_nil (List.splitOnP_ne_nil (fun c => !isWordChar c) cs)
    rw [List.splitOnP_cons_eq_if_modifyHead, hrest] at h
    rw [wordAt_cons_zero]
    cases hc : isWordChar c with
    | false | true =>
      rw [hc] at h
      cases h
      rfl

/-- The runs are the pieces between the breaks, but for the empty ones. -/
theorem wordRuns_eq_filter_splitOnP (cs : List Char) : wordRuns cs =
    (cs.splitOnP fun c => !isWordChar c).filter fun piece => !piece.isEmpty := by
  have hpieces (cs : List Char) : ∃ piece pieces,
      (cs.splitOnP fun c => !isWordChar c) = piece :: pieces :=
    List.exists_cons_of_ne_nil (List.splitOnP_ne_nil _ cs)
  induction cs using runSpans_induction with
  | nil => rfl
  | skips c cs hc ih =>
    rw [wordRuns_break_cons hc, List.splitOnP_cons_eq_if_modifyHead, hc, ih]
    rfl
  | alone c cs hc hnext ih =>
    obtain ⟨piece, pieces, hsplit⟩ := hpieces cs
    have hempty := isEmpty_of_splitOnP hsplit
    rw [hnext] at hempty
    rw [wordRuns_cons_of_wordAt_eq_false hc hnext, List.splitOnP_cons_eq_if_modifyHead, hc, ih,
      hsplit, List.isEmpty_iff.1 hempty]
    rfl
  | joins c cs j spans hc hnext hspans ih =>
    obtain ⟨piece, pieces, hsplit⟩ := hpieces cs
    have hempty := isEmpty_of_splitOnP hsplit
    rw [hnext] at hempty
    rw [hsplit, List.filter_cons, hempty] at ih
    rw [List.splitOnP_cons_eq_if_modifyHead, hc, hsplit]
    cases cs with
    | nil => cases hnext
    | cons d cs =>
      rw [wordRuns_cons_cons hc hnext ih]
      rfl

end

/-! ## Lower case -/

theorem lowercase_ne_nil {run : List Char} (h : run ≠ []) : lowercase run ≠ [] := by
  cases run with
  | nil => exact absurd rfl h
  | cons c cs =>
    rw [lowercase, lowerAfter]
    unfold lowerChar
    split
    · simp
    · split <;> simp

theorem words_ne_empty {cs : List Char} {word : String} (h : word ∈ words cs) : word ≠ "" := by
  obtain ⟨run, hrun, rfl⟩ := List.mem_map.1 h
  rw [wordRuns_eq_filter_splitOnP, List.mem_filter] at hrun
  have hne : run ≠ [] := by simpa using hrun.2
  rw [Ne, String.ofList_eq_empty_iff]
  exact lowercase_ne_nil hne

/-! ## Payloads -/

theorem wordsOfBytes_toUTF8 (s : String) :
    wordsOfBytes s.toUTF8.data.toList = some (words s.toList) := by
  rw [← Utf8.encode_toList, wordsOfBytes_encode]

theorem wordsOfBytes_eq_none_iff {bytes : List UInt8} :
    wordsOfBytes bytes = none ↔ ∀ s : String, s.toUTF8.data.toList ≠ bytes := by
  constructor
  · rintro h s rfl
    rw [wordsOfBytes_toUTF8] at h
    cases h
  · intro h
    unfold wordsOfBytes
    split
    · next cs hcs =>
      refine absurd ?_ (h (String.ofList cs))
      rw [← Utf8.encode_toList, String.toList_ofList]
      exact Utf8.decode_eq_ok_iff.1 hcs
    · rfl

/-- The words of a text are the lower-case forms of its maximal runs of word characters, in order
and none of them empty. A break cuts a text into parts that have the words they have alone. A
payload that is the UTF-8 form of a string has the words of the string, and any other has no words
to list. -/
theorem words_are_runs :
    (∀ cs, ∃ spans : List (Nat × Nat), (spans.Pairwise fun p q => p.2 < q.1) ∧
      (∀ i j, (i, j) ∈ spans ↔ IsRun cs i j) ∧
      words cs = spans.map (fun p => String.ofList (lowercase (cs.extract p.1 p.2))) ∧
      ∀ word ∈ words cs, word ≠ "") ∧
    (∀ xs ys c, isWordChar c = false → words (xs ++ c :: ys) = words xs ++ words ys) ∧
    (∀ bytes, wordsOfBytes bytes = none ↔ ∀ s : String, s.toUTF8.data.toList ≠ bytes) ∧
    ∀ s : String, wordsOfBytes s.toUTF8.data.toList = some (words s.toList) := by
  refine ⟨fun cs => ⟨runSpans cs, pairwise_runSpans cs, fun i j => mem_runSpans, ?_,
    fun word => words_ne_empty⟩, fun xs ys c hc => words_append_cons hc xs ys,
    fun bytes => wordsOfBytes_eq_none_iff, wordsOfBytes_toUTF8⟩
  rw [words, wordRuns_eq_map_extract, List.map_map]
  rfl

/-- The theorem at a sigma before a full stop: it ends its word, though in the text as a whole it
does not, for a full stop is passed over. The first byte of two is no text. -/
theorem words_are_runs_at_full_stop :
    isWordChar '.' = false ∧
    lowercase ['Α', 'Σ', '.', 'İ'] = ['α', 'σ', '.', 'i', Char.ofNat 0x307] ∧
    words ['Α', 'Σ', '.', 'İ'] = ["ας", String.ofList ['i', Char.ofNat 0x307]] ∧
    ∀ s : String, s.toUTF8.data.toList ≠ [0xCE] := by
  obtain ⟨-, hcut, hpayload, -⟩ := words_are_runs
  have hbreak : isWordChar '.' = false := by decide +kernel
  refine ⟨hbreak, by decide +kernel, ?_, (hpayload _).1 (by decide +kernel)⟩
  refine (hcut ['Α', 'Σ'] ['İ'] '.' hbreak).trans ?_
  decide +kernel

end WindowTally.Text
