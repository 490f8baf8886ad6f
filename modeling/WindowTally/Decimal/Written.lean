/-!
# Decimals as they are written

Digits are read as a list of their values, the leading ones first;
`digitsValue` is the number that they stand for.

A written decimal has a sign, digits with a point before, among or after them, and
an exponent; sign, point and exponent may be left out. `Written.parse?` reads one,
and `Written.isFinite` says whether a 64-bit floating-point number is near it.
-/
namespace WindowTally.Decimal

/-- The number that digits stand for. -/
def digitsValue (ds : List Nat) : Nat := ds.foldl (fun n d => n * 10 + d) 0

/-- The digits at the front of a text, and the rest. -/
def takeDigits (cs : List Char) : List Nat × List Char :=
  ((cs.takeWhile Char.isDigit).map fun c => c.toNat - 48, cs.dropWhile Char.isDigit)

/-- The natural number that a text of digits stands for. -/
def natural? (cs : List Char) : Option Nat :=
  match takeDigits cs with
  | ([], _) => none
  | (ds, []) => some (digitsValue ds)
  | (_, _ :: _) => none

/-- The integer that a text of digits stands for, which a sign may precede. -/
def integer? : List Char → Option Int
  | '-' :: cs => (natural? cs).map fun n => -(n : Int)
  | '+' :: cs => (natural? cs).map fun n => (n : Int)
  | cs => (natural? cs).map fun n => (n : Int)

/-- The number `digits * 10 ^ exponent` with a sign. -/
structure Written where
  negative : Bool
  digits : Nat
  exponent : Int
  deriving DecidableEq, Repr

namespace Written

/-- The power of ten that the end of a decimal names: nothing, or `e`, a sign and digits. -/
def exponent? : List Char → Option Int
  | [] => some 0
  | c :: cs => if c = 'e' ∨ c = 'E' then integer? cs else none

/-- A decimal without its sign. -/
def unsigned? (negative : Bool) (cs : List Char) : Option Written :=
  let (whole, cs) := takeDigits cs
  let (fraction, cs) := match cs with
    | '.' :: cs => takeDigits cs
    | cs => ([], cs)
  if whole.isEmpty && fraction.isEmpty then none
  else (exponent? cs).map fun e =>
    ⟨negative, digitsValue (whole ++ fraction), e - fraction.length⟩

/-- The decimal that a text is. -/
def parse? : List Char → Option Written
  | '-' :: cs => unsigned? true cs
  | '+' :: cs => unsigned? false cs
  | cs => unsigned? false cs

/-- The least number that is not rounded to a floating-point number: halfway between the largest
one and the next power of two. -/
def overflow : Nat := 1 <<< 1024 - 1 <<< 970

/-- Whether a floating-point number is near. Only a number of 309 places before the point has to
be looked at closely. -/
def isFinite (w : Written) : Bool :=
  let places := w.exponent + (Nat.toDigits 10 w.digits).length
  if w.digits = 0 ∨ places < 309 then true
  else if 309 < places then false
  else w.digits * Nat.pow 10 w.exponent.toNat < overflow * Nat.pow 10 (-w.exponent).toNat

end Written

end WindowTally.Decimal
