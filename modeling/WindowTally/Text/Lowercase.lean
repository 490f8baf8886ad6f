import WindowTally.Text.CaseRanges
import WindowTally.Text.LowerRuns

/-!
# Lower-casing a word

Every character is replaced by its lower-case form, which depends on its
surroundings in one case only: a capital sigma at the end of a word becomes `ς`,
and `σ` elsewhere. A sigma ends a word when a cased character comes before it and
none comes after it, characters of `caseIgnorableRanges` being passed over on
both sides (`finalSigma`).
-/
namespace WindowTally.Text

/-- Whether the first character that is not passed over has case. -/
def meetsCased : List Char → Bool
  | [] => false
  | c :: cs =>
    if caseIgnorableRanges.contains c.toNat then meetsCased cs else casedRanges.contains c.toNat

/-- Whether a sigma between `before` (nearest character first) and `after` ends its word. -/
def finalSigma (before after : List Char) : Bool := meetsCased before && !meetsCased after

/-- The code point that a sequence of runs maps `n` to. -/
def shiftByRuns : List LowerRun → Nat → Nat
  | [], n => n
  | r :: rs, n =>
    if n < r.first then n
    else if n ≤ r.last then
      if (n - r.first) % r.step = 0 then (n + r.shift).toNat else n
    else shiftByRuns rs n

/-- The lower-case form of a character on its own. Capital dotted I has two characters. -/
def lowerChar (c : Char) : List Char :=
  if c = 'İ' then ['i', Char.ofNat 0x307] else [Char.ofNat (shiftByRuns lowerRuns c.toNat)]

/-- Lower-case `cs`, where `before` is what precedes it, nearest character first. -/
def lowerAfter (before : List Char) : List Char → List Char
  | [] => []
  | c :: cs =>
    (if c = 'Σ' then [if finalSigma before cs then 'ς' else 'σ'] else lowerChar c) ++
      lowerAfter (c :: before) cs

/-- The lower-case form of a word. -/
def lowercase (word : List Char) : List Char := lowerAfter [] word

end WindowTally.Text
