import WindowTally.Window.Basic
import Mathlib.Data.List.Basic

/-!
# Names of windows

A window is named by its ends in decimal with an underscore between them. No number has
an underscore in it, so the name tells the window (`Window.id_inj`).
-/
namespace WindowTally

theorem not_mem_repr {ch : Char} (h : ch.isDigit = false) (m : Nat) :
    ch ∉ (Nat.repr m).toList := by
  intro hmem
  rw [Nat.repr, String.toList_ofList] at hmem
  rw [Nat.isDigit_of_mem_toDigits (by decide) (by decide) hmem] at h
  cases h

theorem eq_of_toList_repr {m k : Nat} (h : (Nat.repr m).toList = (Nat.repr k).toList) : m = k := by
  have hvalue := congrArg (fun digits => Nat.ofDigitChars 10 digits 0) h
  simpa [Nat.repr, Nat.ofDigitChars_toDigits] using hvalue

theorem toList_negSucc (m : Nat) :
    (toString (Int.negSucc m)).toList = '-' :: (Nat.repr (m + 1)).toList := by
  change ("-" ++ Nat.repr (m + 1)).toList = _
  rw [String.toList_append]
  rfl

/-- A written integer has nothing but digits and a sign in it. -/
theorem not_mem_toString {ch : Char} (hdigit : ch.isDigit = false) (hsign : ch ≠ '-') (n : Int) :
    ch ∉ (toString n).toList := by
  cases n with
  | ofNat m => exact not_mem_repr hdigit m
  | negSucc m =>
    rw [toList_negSucc, List.mem_cons, not_or]
    exact ⟨hsign, not_mem_repr hdigit (m + 1)⟩

theorem toList_toString_inj {a b : Int} (h : (toString a).toList = (toString b).toList) :
    a = b := by
  -- The sign tells negative numbers from the others.
  have hsign (m k : Nat) : (toString (Int.negSucc m)).toList ≠ (toString (Int.ofNat k)).toList := by
    intro hsame
    refine not_mem_repr (show Char.isDigit '-' = false by decide) k ?_
    change '-' ∈ (toString (Int.ofNat k)).toList
    rw [← hsame, toList_negSucc]
    exact List.mem_cons_self
  cases a with
  | ofNat m =>
    cases b with
    | ofNat k => exact congrArg Int.ofNat (eq_of_toList_repr h)
    | negSucc k => exact absurd h.symm (hsign k m)
  | negSucc m =>
    cases b with
    | ofNat k => exact absurd h (hsign m k)
    | negSucc k =>
      rw [toList_negSucc, toList_negSucc] at h
      rw [Nat.succ.inj (eq_of_toList_repr (List.cons.inj h).2)]

/-- No two windows have the same name. -/
theorem Window.id_inj {v w : Window} : v.id = w.id ↔ v = w := by
  refine ⟨fun h => ?_, congrArg id⟩
  have hlist := congrArg String.toList h
  simp only [Window.id, String.toList_append, List.append_assoc] at hlist
  obtain ⟨hstart, -, hstop⟩ := (List.append_cons_inj_of_notMem
    (not_mem_toString (by decide) (by decide) _) (not_mem_toString (by decide) (by decide) _)).1
      hlist
  have hends : v.start = w.start ∧ v.stop = w.stop :=
    ⟨Int64.toInt_inj.1 (toList_toString_inj hstart), Int64.toInt_inj.1 (toList_toString_inj hstop)⟩
  cases v
  cases w
  simpa using hends

end WindowTally
