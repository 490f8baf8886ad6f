import Mathlib.Data.List.DropRight
import WindowTally.Proofs.CountsByWindow

/-!
# A table that threads share

Threads count words, take windows out and ask for counts, each call holding the table
for itself. A thread chooses its next call by the answers it has had (`Caller`), and a
schedule says whose turn it is; what is said of every schedule is said of every way
in which the calls can interleave.

`Shared.shared_counts_kept` lists what holds after every schedule. Its core is
`Accounts`: for each word and window the calls on record tell what the table holds
and what has been handed out, and every call keeps that (`accounts_answer`).
-/
namespace WindowTally

open WordCount (amount)

/-- A call on a table of counts. -/
inductive TableCall where
  | count (word : String) (ws : List Window)
  | takeOut (w : Window)
  | snapshot
  | lookUp (word : String) (w : Window)
  | openWindows
  | windowCount
  | size
  | isEmpty
  deriving DecidableEq, Repr

/-- What a call answers. -/
inductive TableAnswer where
  | done
  | entries (cs : List WordCount)
  | found (n? : Option UInt64)
  | windows (ws : List Window)
  | number (n : Nat)
  | truth (b : Bool)
  deriving DecidableEq, Repr

/-- Answer one call. -/
def Tally.answer (u : Tally) : TableCall → TableAnswer × Tally
  | .count word ws => (.done, u.countAll word ws)
  | .takeOut w => (.entries (u.takeOut w).1, (u.takeOut w).2)
  | .snapshot => (.entries u.entries, u)
  | .lookUp word w => (.found (u.count? word w), u)
  | .openWindows => (.windows u.openWindows, u)
  | .windowCount => (.number u.openWindows.length, u)
  | .size => (.number u.entries.length, u)
  | .isEmpty => (.truth u.entries.isEmpty, u)

/-- Answer one call. -/
def CountsByWindow.answer (t : CountsByWindow) : TableCall → TableAnswer × CountsByWindow
  | .count word ws => (.done, t.countAll word ws)
  | .takeOut w => (.entries (t.takeOut w).1, (t.takeOut w).2)
  | .snapshot => (.entries t.snapshot, t)
  | .lookUp word w => (.found (t.count? word w), t)
  | .openWindows => (.windows t.openWindows, t)
  | .windowCount => (.number t.windowCount, t)
  | .size => (.number t.size, t)
  | .isEmpty => (.truth t.isEmpty, t)

/-- Both tables answer the same, and hold the same entries afterwards. -/
theorem CountsByWindow.Holds.answer {t : CountsByWindow} {u : Tally} (h : t.Holds u)
    (call : TableCall) :
    (t.answer call).1 = (u.answer call).1 ∧ (t.answer call).2.Holds (u.answer call).2 := by
  cases call with
  | count word ws => exact ⟨rfl, CountsByWindow.holds_countAll h word ws⟩
  | takeOut w =>
    exact ⟨congrArg _ (CountsByWindow.takeOut_fst_eq h w), CountsByWindow.holds_takeOut h w⟩
  | snapshot => exact ⟨congrArg _ h.snapshot, h⟩
  | lookUp word w => exact ⟨congrArg _ (CountsByWindow.count?_eq h word w), h⟩
  | openWindows => exact ⟨congrArg _ (CountsByWindow.openWindows_eq h), h⟩
  | windowCount => exact ⟨congrArg _ (CountsByWindow.windowCount_eq h), h⟩
  | size => exact ⟨congrArg _ (CountsByWindow.size_eq h), h⟩
  | isEmpty => exact ⟨congrArg _ (CountsByWindow.isEmpty_eq h), h⟩

/-! ## Threads -/

/-- A thread: its next call, as the answers it has had tell it, until it makes no more. -/
abbrev Caller := List TableAnswer → Option TableCall

/-- A call that a thread has made, and the answer it has had. -/
structure CallMade (ι : Type) where
  thread : ι
  call : TableCall
  answer : TableAnswer
  deriving DecidableEq, Repr

namespace CallMade

variable {ι : Type}

/-- How often a call counts a word in a window. -/
def counted (word : String) (w : Window) (e : CallMade ι) : Nat :=
  match e.call with
  | .count x ws => if x = word then ws.count w else 0
  | _ => 0

/-- How often a word has occurred in a window by what a call has taken out. -/
def takenOut (word : String) (w : Window) (e : CallMade ι) : Nat :=
  match e.call, e.answer with
  | .takeOut _, .entries cs => amount word w cs
  | _, _ => 0

end CallMade

/-- A table that threads share, and the calls they have made on it. -/
structure Shared (ι σ : Type) where
  table : σ
  log : List (CallMade ι) := []

namespace Shared

variable {ι σ : Type}

section
variable [DecidableEq ι]

/-- The answers a thread has had. -/
def heard (s : Shared ι σ) (i : ι) : List TableAnswer :=
  (s.log.filter fun e => e.thread = i).map (·.answer)

/-- One turn of a thread, which has the table to itself for its next call. -/
def turn (answer : σ → TableCall → TableAnswer × σ) (threads : ι → Caller) (s : Shared ι σ)
    (i : ι) : Shared ι σ :=
  match threads i (s.heard i) with
  | none => s
  | some call =>
    ⟨(answer s.table call).2, s.log ++ [⟨i, call, (answer s.table call).1⟩]⟩

/-- Turns of threads, in the order of a schedule. -/
def run (answer : σ → TableCall → TableAnswer × σ) (threads : ι → Caller) (s : Shared ι σ)
    (schedule : List ι) : Shared ι σ :=
  schedule.foldl (turn answer threads) s

/-- What holds at the start and is kept by every call holds after every schedule. -/
theorem run_induction {answer : σ → TableCall → TableAnswer × σ} {threads : ι → Caller}
    {P : Shared ι σ → Prop}
    (step : ∀ s i call, P s →
      P ⟨(answer s.table call).2, s.log ++ [⟨i, call, (answer s.table call).1⟩]⟩)
    {s : Shared ι σ} (h : P s) (schedule : List ι) : P (s.run answer threads schedule) := by
  induction schedule generalizing s with
  | nil => exact h
  | cons i schedule ih =>
    refine ih ?_
    rw [turn]
    split
    · exact h
    · exact step s i _ h

end

/-! ## What the calls say of a pair -/

/-- How often calls count a word in a window. -/
def counted (word : String) (w : Window) (log : List (CallMade ι)) : Nat :=
  (log.map (·.counted word w)).sum

/-- How often a word has occurred in a window by all that calls have taken out. -/
def takenOut (word : String) (w : Window) (log : List (CallMade ι)) : Nat :=
  (log.map (·.takenOut word w)).sum

/-- The calls after the last one that takes a window out. -/
def since (w : Window) (log : List (CallMade ι)) : List (CallMade ι) :=
  log.rtakeWhile fun e => !decide (e.call = .takeOut w)

section
variable (word : String) (w : Window) (log : List (CallMade ι)) (e : CallMade ι)

theorem counted_concat :
    counted word w (log ++ [e]) = counted word w log + e.counted word w := by
  simp [counted]

theorem takenOut_concat :
    takenOut word w (log ++ [e]) = takenOut word w log + e.takenOut word w := by
  simp [takenOut]

theorem since_concat :
    since w (log ++ [e]) = if e.call = .takeOut w then [] else since w log ++ [e] := by
  rw [since, List.rtakeWhile_concat]
  by_cases he : e.call = .takeOut w
  · simp [he]
  · simp [he, since]

end

/-- The calls on record account for what a tally holds of a pair: what was counted since its window
was last taken out is there, up to the largest count, and what was counted before has been handed
out. -/
structure Accounts (word : String) (w : Window) (log : List (CallMade ι)) (u : Tally) : Prop where
  held : amount word w u.entries = min (counted word w (since w log)) (2 ^ 64 - 1)
  conserved : counted word w log < 2 ^ 64 →
    takenOut word w log + amount word w u.entries = counted word w log

theorem accounts_answer {word : String} {w : Window} {log : List (CallMade ι)} {u : Tally}
    (h : Accounts word w log u) (i : ι) (call : TableCall) :
    Accounts word w (log ++ [⟨i, call, (u.answer call).1⟩]) (u.answer call).2 := by
  -- A call that counts nothing and takes nothing out leaves both sums as they are.
  have hquiet : ∀ answer, call ≠ .takeOut w →
      (⟨i, call, answer⟩ : CallMade ι).counted word w = 0 →
      (⟨i, call, answer⟩ : CallMade ι).takenOut word w = 0 →
      Accounts word w (log ++ [⟨i, call, answer⟩]) u := by
    intro answer hcall hcounted htaken
    constructor
    · rw [since_concat, if_neg hcall, counted_concat, hcounted]
      exact h.held
    · rw [counted_concat, takenOut_concat, hcounted, htaken]
      exact h.conserved
  cases call with
  | count x ws =>
    have hamount : amount word w (u.countAll x ws).entries =
        min (amount word w u.entries + if x = word then ws.count w else 0) (2 ^ 64 - 1) := by
      have hle : amount word w u.entries ≤ 2 ^ 64 - 1 := WordCount.amount_le u.ordered
      rw [Tally.amount_countAll]
      by_cases hx : word = x
      · simp [hx]
      · rw [if_neg hx, if_neg (Ne.symm hx), Nat.add_zero, min_eq_left hle]
    have hheld := h.held
    constructor
    · rw [since_concat, if_neg (by simp), counted_concat]
      simp only [Tally.answer, CallMade.counted, hamount]
      omega
    · intro hfew
      rw [counted_concat] at hfew
      have hconserved := h.conserved (by omega)
      rw [counted_concat, takenOut_concat]
      simp only [Tally.answer, CallMade.counted, CallMade.takenOut, hamount] at hfew ⊢
      omega
  | takeOut v =>
    obtain ⟨htaken, hleft⟩ := Tally.amount_takeOut u v word w
    constructor
    · rw [since_concat]
      simp only [Tally.answer, hleft, TableCall.takeOut.injEq]
      split
      · rfl
      · rw [counted_concat, h.held]
        rfl
    · intro hfew
      rw [counted_concat] at hfew
      have hconserved := h.conserved (by omega)
      rw [counted_concat, takenOut_concat]
      simp only [Tally.answer, CallMade.counted, CallMade.takenOut, htaken, hleft]
      split <;> omega
  | snapshot => exact hquiet _ (by simp) rfl rfl
  | lookUp x v => exact hquiet _ (by simp) rfl rfl
  | openWindows => exact hquiet _ (by simp) rfl rfl
  | windowCount => exact hquiet _ (by simp) rfl rfl
  | size => exact hquiet _ (by simp) rfl rfl
  | isEmpty => exact hquiet _ (by simp) rfl rfl

theorem since_append {w : Window} (log : List (CallMade ι)) {more : List (CallMade ι)}
    (h : ∀ e ∈ more, e.call ≠ .takeOut w) : since w (log ++ more) = since w log ++ more := by
  induction more using List.reverseRecOn with
  | nil => simp
  | append_singleton more e ih =>
    rw [← List.append_assoc, since_concat, if_neg (h e (by simp)),
      ih fun d hd => h d (List.mem_append_left _ hd), List.append_assoc]

theorem counted_append (word : String) (w : Window) (log more : List (CallMade ι)) :
    counted word w (log ++ more) = counted word w log + counted word w more := by
  simp [counted]

/-! ## Every schedule -/

section
variable [DecidableEq ι] (store : String) (threads : ι → Caller)

/-- Turns of threads that share counts by window. -/
def byWindow (schedule : List ι) : Shared ι CountsByWindow :=
  run CountsByWindow.answer threads ⟨{ store := store }, []⟩ schedule

/-- Turns of threads that share a tally. -/
def inOneList (schedule : List ι) : Shared ι Tally :=
  run Tally.answer threads ⟨{ store := store }, []⟩ schedule

/-- The threads make the same calls on both tables, and have the same answers. -/
theorem holds_run (schedule : List ι) {s : Shared ι CountsByWindow} {u : Shared ι Tally}
    (htable : s.table.Holds u.table) (hlog : s.log = u.log) :
    (s.run CountsByWindow.answer threads schedule).table.Holds
        (u.run Tally.answer threads schedule).table ∧
      (s.run CountsByWindow.answer threads schedule).log =
        (u.run Tally.answer threads schedule).log := by
  induction schedule generalizing s u with
  | nil => exact ⟨htable, hlog⟩
  | cons i schedule ih =>
    have hheard : s.heard i = u.heard i := by rw [heard, heard, hlog]
    simp only [run, List.foldl_cons] at ih ⊢
    rw [turn, turn, hheard]
    cases threads i (u.heard i) with
    | none => exact ih htable hlog
    | some call =>
      obtain ⟨hanswer, hafter⟩ := htable.answer call
      refine ih hafter ?_
      simp only [hanswer, hlog]

theorem holds_byWindow (schedule : List ι) :
    (byWindow store threads schedule).table.Holds (inOneList store threads schedule).table ∧
      (byWindow store threads schedule).log = (inOneList store threads schedule).log := by
  have hempty : CountsByWindow.WellFormed { store := store } :=
    ⟨List.Pairwise.nil, fun r hr => absurd hr List.not_mem_nil⟩
  exact holds_run threads schedule ⟨hempty, rfl⟩ rfl

theorem accounts_byWindow (schedule : List ι) (word : String) (w : Window) :
    Accounts word w (byWindow store threads schedule).log
      (inOneList store threads schedule).table := by
  rw [(holds_byWindow store threads schedule).2]
  refine run_induction (P := fun u => Accounts word w u.log u.table) ?_ ?_ schedule
  · exact fun u i call hu => accounts_answer hu i call
  · exact ⟨by simp [since, counted], fun _ => rfl⟩

/-- A table tells of a pair how often it was counted since its window was last taken out. -/
theorem elim_count?_byWindow (schedule : List ι) (word : String) (w : Window) :
    ((byWindow store threads schedule).table.count? word w).elim 0 UInt64.toNat =
      min (counted word w (since w (byWindow store threads schedule).log)) (2 ^ 64 - 1) := by
  obtain ⟨hholds, -⟩ := holds_byWindow store threads schedule
  rw [CountsByWindow.count?_eq hholds, Tally.elim_count?]
  exact (accounts_byWindow store threads schedule word w).held

theorem log_byWindow_append (schedule more : List ι) :
    (byWindow store threads schedule).log <+: (byWindow store threads (schedule ++ more)).log := by
  rw [byWindow, byWindow, run, run, List.foldl_append]
  refine run_induction
    (P := fun s => (byWindow store threads schedule).log <+: s.log) (fun s i call hs => ?_)
    (List.prefix_refl _) more
  exact hs.trans (List.prefix_append _ _)

variable (schedule : List ι)

theorem conserved_byWindow (word : String) (w : Window)
    (hfew : counted word w (byWindow store threads schedule).log < 2 ^ 64) :
    takenOut word w (byWindow store threads schedule).log +
        ((byWindow store threads schedule).table.count? word w).elim 0 UInt64.toNat =
      counted word w (byWindow store threads schedule).log := by
  have haccounts := accounts_byWindow store threads schedule word w
  rw [elim_count?_byWindow, ← haccounts.held]
  exact haccounts.conserved hfew

/-- A count that is there is not zero. -/
theorem pos_of_count?_eq_some {word : String} {w : Window} {n : UInt64}
    (hn : (byWindow store threads schedule).table.count? word w = some n) : 0 < n.toNat := by
  obtain ⟨hholds, -⟩ := holds_byWindow store threads schedule
  rw [CountsByWindow.count?_eq hholds] at hn
  exact hholds.positive _ (Tally.mem_of_count?_eq_some hn)

theorem count?_eq_none_iff (word : String) (w : Window) :
    (byWindow store threads schedule).table.count? word w = none ↔
      counted word w (since w (byWindow store threads schedule).log) = 0 := by
  have hcount := elim_count?_byWindow store threads schedule word w
  cases hn : (byWindow store threads schedule).table.count? word w with
  | none =>
    rw [hn] at hcount
    simp only [Option.elim] at hcount
    exact ⟨fun _ => by omega, fun _ => rfl⟩
  | some n =>
    have hpos := pos_of_count?_eq_some store threads schedule hn
    rw [hn] at hcount
    simp only [Option.elim] at hcount
    exact ⟨fun h => absurd h (Option.some_ne_none n), fun h => by omega⟩

/-- Until its window is taken out, a count does not fall. -/
theorem le_count?_of_not_takenOut (more : List ι) {word : String} {w : Window} {n : UInt64}
    (hn : (byWindow store threads schedule).table.count? word w = some n)
    (hkept : ∀ e ∈ (byWindow store threads (schedule ++ more)).log.drop
      (byWindow store threads schedule).log.length, e.call ≠ .takeOut w) :
    ∃ m, (byWindow store threads (schedule ++ more)).table.count? word w = some m ∧ n ≤ m := by
  obtain ⟨new, hnew⟩ := log_byWindow_append store threads schedule more
  rw [← hnew, List.drop_left] at hkept
  have hpos := pos_of_count?_eq_some store threads schedule hn
  have hbefore := elim_count?_byWindow store threads schedule word w
  have hafter := elim_count?_byWindow store threads (schedule ++ more) word w
  rw [← hnew, since_append _ hkept, counted_append] at hafter
  rw [hn] at hbefore
  cases hm : (byWindow store threads (schedule ++ more)).table.count? word w with
  | none =>
    rw [hm] at hafter
    simp only [Option.elim] at hbefore hafter
    omega
  | some m =>
    rw [hm] at hafter
    simp only [Option.elim] at hbefore hafter
    exact ⟨m, rfl, UInt64.le_iff_toNat_le.2 (by omega)⟩

/-- A window that nothing was counted in since it was last taken out has nothing to take out. -/
theorem takeOut_eq_nil {w : Window}
    (h : ∀ word, counted word w (since w (byWindow store threads schedule).log) = 0) :
    ((byWindow store threads schedule).table.takeOut w).1 = [] := by
  obtain ⟨hholds, -⟩ := holds_byWindow store threads schedule
  rw [CountsByWindow.takeOut_fst_eq hholds]
  refine List.filter_eq_nil_iff.2 fun c hc => ?_
  have hle := WordCount.le_amount hc
  have hpos := hholds.positive c hc
  rw [(accounts_byWindow store threads schedule _ _).held] at hle
  rw [decide_eq_true_eq]
  rintro rfl
  have := h c.word
  omega

/-- Threads that share a table of counts lose and duplicate nothing, in whatever order their calls
come, whichever words and windows they count and if a list names a window more than once. -/
theorem shared_counts_kept {s : Shared ι CountsByWindow}
    (hs : byWindow store threads schedule = s) :
    (s.log = (inOneList store threads schedule).log ∧
      s.table.snapshot = (inOneList store threads schedule).table.entries) ∧
    (∀ word w, counted word w s.log < 2 ^ 64 →
      takenOut word w s.log + (s.table.count? word w).elim 0 UInt64.toNat =
        counted word w s.log) ∧
    (∀ word w, s.table.count? word w = none ↔ counted word w (since w s.log) = 0) ∧
    (∀ word w n, s.table.count? word w = some n →
      ∀ more s', byWindow store threads (schedule ++ more) = s' →
        (∀ e ∈ s'.log.drop s.log.length, e.call ≠ .takeOut w) →
          ∃ m, s'.table.count? word w = some m ∧ n ≤ m) ∧
    (∀ w,
      (s.table.takeOut w).1 = s.table.snapshot.filter (fun c => c.window = w) ∧
      (s.table.takeOut w).2.snapshot = s.table.snapshot.filter (fun c => !decide (c.window = w)) ∧
      ((s.table.takeOut w).2.takeOut w).1 = [] ∧
      ((∀ word, counted word w (since w s.log) = 0) → (s.table.takeOut w).1 = [])) ∧
    (∀ r ∈ s.table.rows, r.2 ≠ []) ∧
    (s.table.isEmpty = s.table.snapshot.isEmpty ∧
      s.table.size = s.table.snapshot.length ∧
      s.table.openWindows = Tally.windowsOf s.table.snapshot ∧
      s.table.windowCount = WordCount.windowCount s.table.snapshot) ∧
    s.table.snapshot.Pairwise WordCount.ListsBefore := by
  subst hs
  obtain ⟨hholds, hlog⟩ := holds_byWindow store threads schedule
  have hqueries : (byWindow store threads schedule).table.isEmpty =
        (inOneList store threads schedule).table.entries.isEmpty ∧
      (byWindow store threads schedule).table.size =
        (inOneList store threads schedule).table.entries.length ∧
      (byWindow store threads schedule).table.openWindows =
        (inOneList store threads schedule).table.openWindows ∧
      (byWindow store threads schedule).table.windowCount =
        WordCount.windowCount (inOneList store threads schedule).table.entries :=
    ⟨CountsByWindow.isEmpty_eq hholds, CountsByWindow.size_eq hholds,
      CountsByWindow.openWindows_eq hholds,
      (CountsByWindow.windowCount_eq hholds).trans (Tally.length_openWindows _)⟩
  rw [← hholds.snapshot, Tally.openWindows, ← hholds.snapshot] at hqueries
  have hagain : ∀ w,
      (((byWindow store threads schedule).table.takeOut w).2.takeOut w).1 = [] := by
    intro w
    rw [CountsByWindow.takeOut_fst (CountsByWindow.wellFormed_takeOut hholds.wellFormed w),
      CountsByWindow.snapshot_takeOut_snd, List.filter_filter]
    exact List.filter_eq_nil_iff.2 fun c _ => by simp
  refine ⟨⟨hlog, hholds.snapshot⟩, conserved_byWindow store threads schedule,
    count?_eq_none_iff store threads schedule, ?_, fun w => ⟨?_, ?_, hagain w, ?_⟩,
    fun r hr => (hholds.wellFormed.filled r hr).ne_nil, hqueries,
    CountsByWindow.pairwise_snapshot hholds.wellFormed⟩
  · rintro word w n hn more _ rfl hkept
    exact le_count?_of_not_takenOut store threads schedule more hn hkept
  · exact CountsByWindow.takeOut_fst hholds.wellFormed w
  · exact CountsByWindow.snapshot_takeOut_snd w
  · exact takeOut_eq_nil store threads schedule

end

/-- A thread that counts a word twice in a window, naming it twice, and then once more, and one that
takes the window out. -/
def countingAndTaking : Bool → Caller
  | false, [] => some (.count "a" [⟨0, 5⟩, ⟨0, 5⟩])
  | false, [_] => some (.count "a" [⟨0, 5⟩])
  | true, [] => some (.takeOut ⟨0, 5⟩)
  | _, _ => none

/-- The theorem where the window is taken out in between. -/
theorem shared_counts_kept_of_two_threads :
    ∃ s, byWindow "WordCounts" countingAndTaking [false, true, false] = s ∧
      takenOut "a" ⟨0, 5⟩ s.log = 2 ∧ (s.table.count? "a" ⟨0, 5⟩).elim 0 UInt64.toNat = 1 ∧
      counted "a" ⟨0, 5⟩ s.log = 3 := by
  obtain ⟨⟨hlog, -⟩, hconserved, -⟩ :=
    shared_counts_kept "WordCounts" countingAndTaking [false, true, false] rfl
  have hcounted : counted "a" ⟨0, 5⟩
      (byWindow "WordCounts" countingAndTaking [false, true, false]).log = 3 := by
    rw [hlog]
    decide +kernel
  have htaken : takenOut "a" ⟨0, 5⟩
      (byWindow "WordCounts" countingAndTaking [false, true, false]).log = 2 := by
    rw [hlog]
    decide +kernel
  have hall := hconserved "a" ⟨0, 5⟩ (by rw [hcounted]; decide)
  rw [htaken, hcounted] at hall
  exact ⟨_, rfl, htaken, Nat.add_left_cancel hall, hcounted⟩

end Shared

end WindowTally
