import WindowTally.Text.UnprintableRanges

/-!
# Characters by their numbers

`hexDigit` writes a hexadecimal digit in lower case; `hexValue` reads one in either
case, and `hexNumber` a number of any length.

Messages show a piece of text between double quotes (`quoted`). The quote, the
backslash and the common control characters are written with a backslash; other
characters that do not show are written by their code points.
-/
namespace WindowTally.Text

/-- The hexadecimal digit of a number below sixteen, in lower case. -/
def hexDigit (n : Nat) : Char := if n < 10 then Char.ofNat (48 + n) else Char.ofNat (87 + n)

/-- The value of a hexadecimal digit. -/
def hexValue (c : Char) : Option Nat :=
  if '0' ≤ c ∧ c ≤ '9' then some (c.toNat - 48)
  else if 'a' ≤ c ∧ c ≤ 'f' then some (c.toNat - 87)
  else if 'A' ≤ c ∧ c ≤ 'F' then some (c.toNat - 55)
  else none

/-- The value of hexadecimal digits, the leading ones first; every character has to be one. -/
def hexNumber (cs : List Char) : Option Nat :=
  cs.foldlM (fun n c => (hexValue c).map (n * 16 + ·)) 0

/-- The character with a number, if it has one. -/
def scalarValue (n : Nat) : Option Char := if n.isValidChar then some (Char.ofNat n) else none

/-- The characters that stand for one quoted character. -/
def showChar (c : Char) : List Char :=
  if c = '"' then ['\\', '"']
  else if c = '\\' then ['\\', '\\']
  else if c = '\n' then ['\\', 'n']
  else if c = '\r' then ['\\', 'r']
  else if c = '\t' then ['\\', 't']
  else if c.toNat = 0 then ['\\', '0']
  else if unprintableRanges.contains c.toNat then
    ['\\', 'u', '{'] ++ Nat.toDigits 16 c.toNat ++ ['}']
  else [c]

/-- A piece of text between quotes. -/
def quoted (s : String) : String :=
  String.ofList ('"' :: (s.toList.flatMap showChar ++ ['"']))

end WindowTally.Text
