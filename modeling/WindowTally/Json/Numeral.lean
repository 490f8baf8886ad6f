import WindowTally.Decimal.Written
import WindowTally.Decimal.Shortest

/-!
# Numbers in JSON

A number without point and exponent that fits 64 bits, signed or unsigned, is an
integer. Any other number is real. Reals are only ever named in messages, by the
text of the floating-point number that is got by scaling the leading digits.
-/
namespace WindowTally.Json

/-- A number as it is read. -/
inductive Numeral where
  | integer (n : Int)
  | real (text : String)
  /-- No floating-point number is as large. -/
  | tooLarge
  deriving DecidableEq, Repr

/-- The parts of a number as it is written. -/
structure Lexeme where
  negative : Bool
  whole : List Nat
  fraction : Option (List Nat)
  exponent : Option Int
  deriving DecidableEq, Repr

namespace Numeral

/-- Positional from `0.00001` up to sixteen places before the point; otherwise the exponent has two
digits at least. -/
def layout : Decimal.Layout := ⟨-5, 15, 2⟩

/-- The leading digits of a number, as far as they fit 64 bits, and the power of ten they are
scaled by. -/
structure Scaled where
  significand : Nat := 0
  power : Int := 0
  full : Bool := false
  deriving DecidableEq, Repr

/-- Take in a digit before the point. -/
def Scaled.wholeDigit (s : Scaled) (d : Nat) : Scaled :=
  if !s.full && s.significand * 10 + d < UInt64.size then
    { s with significand := s.significand * 10 + d }
  else { s with power := s.power + 1, full := true }

/-- Take in a digit after the point. -/
def Scaled.fractionDigit (s : Scaled) (d : Nat) : Scaled :=
  if !s.full && s.significand * 10 + d < UInt64.size then
    { s with significand := s.significand * 10 + d, power := s.power - 1 }
  else { s with full := true }

/-- The leading digits of a number. -/
def Scaled.ofLexeme (l : Lexeme) : Scaled :=
  let s := l.whole.foldl wholeDigit {}
  (l.fraction.getD []).foldl fractionDigit { s with full := false }

/-- Scale by a power of ten, at most 308 places at a time; nothing if the result is too large. -/
def scale (x : Float) (power : Int) : Nat → Option Float
  | 0 => some x
  | n + 1 =>
    if power.natAbs ≤ 308 then
      let pow := Float.ofScientific 1 false power.natAbs
      if 0 ≤ power then if (x * pow).isInf then none else some (x * pow)
      else some (x / pow)
    else if x == 0.0 then some x
    else if 0 ≤ power then none
    else scale (x / Float.ofScientific 1 false 308) (power + 308) n

/-- The floating-point number of a real, without its sign. -/
def magnitude (l : Lexeme) : Option Float :=
  let s := Scaled.ofLexeme l
  match l.exponent with
  | none => scale (Float.ofNat s.significand) s.power 20
  | some e =>
    if e.natAbs < 1 <<< 31 then scale (Float.ofNat s.significand) (s.power + e) 20
    else if s.significand != 0 && 0 < e then none
    else some 0.0

/-- Whether a number is an integer, and which. -/
def integer? (l : Lexeme) : Option Int :=
  let n := Decimal.digitsValue l.whole
  match l.fraction, l.exponent with
  | none, none =>
    if l.negative then if 0 < n ∧ n ≤ 1 <<< 63 then some (-n) else none
    else if n < UInt64.size then some n else none
  | _, _ => none

/-- The number that is written. -/
def ofLexeme (l : Lexeme) : Numeral :=
  match integer? l with
  | some n => .integer n
  | none =>
    match magnitude l with
    | some x => .real (layout.float (if l.negative then -x else x))
    | none => .tooLarge

end Numeral

end WindowTally.Json
