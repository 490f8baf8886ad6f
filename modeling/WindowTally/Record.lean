import WindowTally.Window.Basic

/-!
# What flows in and out

A `Record` is a payload with its event time; a `WordCount` says how often one word
occurred in one window.
-/
namespace WindowTally

/-- A payload with its event time and, possibly, a key.
mirrors `record.Record` -/
structure Record where
  timestamp : Millis
  payload : List UInt8
  key : Option String := none
  deriving DecidableEq, Repr

/-- How often a word occurred in a window.
mirrors `record.WordCount` -/
structure WordCount where
  word : String
  count : UInt64
  window : Window
  deriving DecidableEq, Repr

namespace WordCount

/-- The order of listings: by window, then by word. -/
def ListsBefore (a b : WordCount) : Prop :=
  a.window.ListsBefore b.window ∨ a.window = b.window ∧ a.word < b.word

instance : DecidableRel ListsBefore := fun a b =>
  inferInstanceAs
    (Decidable (a.window.ListsBefore b.window ∨ a.window = b.window ∧ a.word < b.word))

theorem ListsBefore.trans {a b c : WordCount} (hab : a.ListsBefore b) (hbc : b.ListsBefore c) :
    a.ListsBefore c := by
  rcases hab with h | ⟨h, hw⟩
  · rcases hbc with h' | ⟨h', _⟩
    · exact .inl (h.trans h')
    · exact .inl (h' ▸ h)
  · rcases hbc with h' | ⟨h', hw'⟩
    · exact .inl (h ▸ h')
    · exact .inr ⟨h.trans h', String.lt_trans hw hw'⟩

/-- `word=count window`.
mirrors `record.WordCount.fmt` -/
def text (c : WordCount) : String := c.word ++ "=" ++ toString c.count.toNat ++ " " ++ c.window.text

end WordCount

end WindowTally
