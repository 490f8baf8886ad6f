/-!
# The shortest decimal of a binary number

Many decimals round to the same 64-bit floating-point number. `Binary.shortest`
finds the one with the fewest digits and, among those, the nearest one: it looks
at ever finer decimal grids until a neighbour of the number on the grid lies
between the halfway points to the number's own neighbours.
-/
namespace WindowTally.Decimal

/-- The number `mantissa * 2 ^ exponent`. -/
structure Binary where
  mantissa : Nat
  exponent : Int
  /-- The next number below is only half as far away as the next above. -/
  closeBelow : Bool
  deriving DecidableEq, Repr

/-- The number `digits * 10 ^ exponent`. -/
structure Value where
  digits : Nat
  exponent : Int
  deriving DecidableEq, Repr

namespace Binary

/-- The magnitude of a finite number with the given bits. -/
def ofBits (bits : UInt64) : Binary :=
  let exponent := (bits >>> 52).toNat % 2048
  let fraction := bits.toNat % 1 <<< 52
  if exponent = 0 then ⟨fraction, -1074, false⟩
  else ⟨1 <<< 52 + fraction, exponent - 1075, decide (fraction = 0 ∧ 1 < exponent)⟩

/-- A quarter of the last binary place over `10 ^ e`, as a fraction. -/
def quarterOver (b : Binary) (e : Int) : Nat × Nat :=
  (Nat.pow 10 (-e).toNat <<< (b.exponent - 2).toNat, Nat.pow 10 e.toNat <<< (2 - b.exponent).toNat)

/-- Whether `n * 10 ^ e` rounds to the number: it lies between the halfway points, or on one of
them if the mantissa is even. -/
def rounds (b : Binary) (e : Int) (n : Nat) : Bool :=
  let (num, den) := b.quarterOver e
  let low := (4 * b.mantissa - (if b.closeBelow then 1 else 2)) * num
  let high := (4 * b.mantissa + 2) * num
  if b.mantissa % 2 = 0 then low ≤ n * den && n * den ≤ high
  else low < n * den && n * den < high

/-- The neighbour of the number on the grid of `10 ^ e` that rounds to it; of two the nearer, and
the even one if both are as near. -/
def onGrid (b : Binary) (e : Int) : Option Value :=
  let (num, den) := b.quarterOver e
  let value := 4 * b.mantissa * num
  let below := value / den
  let above := below + 1
  let belowFits := b.rounds e below && below != 0
  let aboveFits := b.rounds e above
  let preferBelow :=
    2 * value < (below + above) * den || 2 * value == (below + above) * den && below % 2 == 0
  if belowFits && (preferBelow || !aboveFits) then some ⟨below, e⟩
  else if aboveFits then some ⟨above, e⟩
  else none

/-- The shortest decimal that rounds to the number, if it is not zero. -/
def shortest (b : Binary) : Option Value :=
  if b.mantissa = 0 then none
  else (List.range 660).findSome? fun (i : Nat) => b.onGrid (309 - (i : Int))

end Binary

/-- How decimals are laid out: positional while the exponent of the leading digit lies between the
two bounds, otherwise one digit before the point and a signed exponent of so many digits at
least. -/
structure Layout where
  least : Int
  greatest : Int
  exponentDigits : Nat
  deriving DecidableEq, Repr

/-- The text of a decimal that is not zero. A whole number keeps one place after the point in
positional layout. -/
def Layout.text (l : Layout) (d : Value) : List Char :=
  let ds := Nat.toDigits 10 d.digits
  let lead : Int := d.exponent + ds.length - 1
  if l.least ≤ lead ∧ lead ≤ l.greatest then
    if ds.length ≤ lead + 1 then
      ds ++ List.replicate (lead + 1 - ds.length).toNat '0' ++ ['.', '0']
    else if 0 ≤ lead then ds.take (lead + 1).toNat ++ '.' :: ds.drop (lead + 1).toNat
    else ['0', '.'] ++ List.replicate (-lead - 1).toNat '0' ++ ds
  else
    let mantissa := match ds with
      | d :: r :: rs => d :: '.' :: r :: rs
      | ds => ds
    let exponent := Nat.toDigits 10 lead.natAbs
    mantissa ++ ['e', if lead < 0 then '-' else '+'] ++
      List.replicate (l.exponentDigits - exponent.length) '0' ++ exponent

/-- The text of a finite floating-point number. -/
def Layout.float (l : Layout) (x : Float) : String :=
  let bits := x.toBits
  let sign := if bits >>> 63 = 1 then ['-'] else []
  let body := match (Binary.ofBits bits).shortest with
    | some d => l.text d
    | none => ['0', '.', '0']
  String.ofList (sign ++ body)

end WindowTally.Decimal
