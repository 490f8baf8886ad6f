import WindowTally.Ordered
import WindowTally.Record

/-!
# The tally

Counts every `(word, window)` pair that has occurred and whose window has not been
taken out. The entries are kept in listing order, one for each pair, and a pair
that has not occurred has no entry. Counts stop at the largest 64-bit number.
-/
namespace WindowTally

/-- The counts of all open windows, under the name of the store they belong to.
mirrors `counter.WindowedCounter` -/
structure Tally where
  store : String
  entries : List WordCount := []
  ordered : entries.Pairwise WordCount.ListsBefore := by exact List.Pairwise.nil

namespace Tally

/-- One more than `n`, up to the largest number. -/
def succSaturating (n : UInt64) : UInt64 := if n = UInt64.ofNat 0xFFFFFFFFFFFFFFFF then n else n + 1

/-- An entry with one more occurrence. -/
def bump (c : WordCount) : WordCount := { c with count := succSaturating c.count }

theorem pairwise_put {cs : List WordCount} (h : cs.Pairwise WordCount.ListsBefore)
    (c : WordCount) :
    (Ordered.put WordCount.ListsBefore c bump cs).Pairwise WordCount.ListsBefore := by
  refine Ordered.pairwise_put ?_ ?_ ?_ h
  · exact WordCount.ListsBefore.trans
  · exact fun h => h
  · exact fun h => h

/-- Count one occurrence of a word in a window. -/
def count (t : Tally) (word : String) (w : Window) : Tally :=
  { t with
    entries := Ordered.put WordCount.ListsBefore ⟨word, 1, w⟩ bump t.entries
    ordered := pairwise_put t.ordered _ }

/-- Count one occurrence of a word in each of several windows.
mirrors `counter.WindowedCounter.ingest` -/
def countAll (t : Tally) (word : String) (ws : List Window) : Tally :=
  ws.foldl (fun t w => t.count word w) t

/-- How often a word has occurred in a window, if it has.
mirrors `counter.WindowedCounter.count` -/
def count? (t : Tally) (word : String) (w : Window) : Option UInt64 :=
  (t.entries.find? fun c => c.window = w && c.word = word).map (·.count)

/-- Take a window out: its counts by word, and the tally without them.
mirrors `counter.WindowedCounter.emit_and_retire` -/
def takeOut (t : Tally) (w : Window) : List WordCount × Tally :=
  (t.entries.filter fun c => c.window = w,
    { t with
      entries := t.entries.filter fun c => !decide (c.window = w)
      ordered := t.ordered.filter _ })

/-- Each window that entries in listing order belong to, once. -/
def windowsOf : List WordCount → List Window
  | [] => []
  | c :: cs =>
    match windowsOf cs with
    | [] => [c.window]
    | w :: ws => if c.window = w then w :: ws else c.window :: w :: ws

/-- The windows that hold counts, in listing order.
mirrors `counter.WindowedCounter.open_windows` -/
def openWindows (t : Tally) : List Window := windowsOf t.entries

end Tally

end WindowTally
