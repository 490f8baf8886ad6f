import WindowTally.Json.Numeral
import WindowTally.Text.Escapes

/-!
# JSON tokens

The brackets, commas, colons, literals, numbers and strings that a JSON text
consists of. White space between them is left out. Where the text stops being
JSON the tokens end with `broken`, so that a reader meets the faults of a text in
the order in which they stand.
-/
namespace WindowTally.Json

open Decimal (digitsValue takeDigits)

/-- A token of a JSON text. -/
inductive Token where
  | listOpen
  | listClose
  | mapOpen
  | mapClose
  | comma
  | colon
  | null
  | flag (b : Bool)
  | number (n : Numeral)
  /-- A string; it has no value if half of a surrogate pair is missing. -/
  | text (s : Option String)
  | broken
  deriving DecidableEq, Repr

/-- The white space of JSON. -/
def isSpace (c : Char) : Bool := c = ' ' || c = '\n' || c = '\t' || c = '\r'

/-- The character that a backslash and a letter stand for. -/
def unescape (c : Char) : Option Char :=
  if c = '"' ∨ c = '\\' ∨ c = '/' then some c
  else if c = 'b' then some '\x08'
  else if c = 'f' then some '\x0c'
  else if c = 'n' then some '\n'
  else if c = 'r' then some '\r'
  else if c = 't' then some '\t'
  else none

def isHighSurrogate (n : Nat) : Bool := 0xD800 ≤ n && n < 0xDC00

def isLowSurrogate (n : Nat) : Bool := 0xDC00 ≤ n && n < 0xE000

/-- The character of a surrogate pair. -/
def pairValue (high low : Nat) : Char :=
  Char.ofNat ((high - 0xD800) * 1024 + (low - 0xDC00) + 0x10000)

/-- What one character or escape of a string stands for: a character, or half of one. -/
inductive TextUnit where
  | whole (c : Char)
  | half (n : Nat)
  deriving DecidableEq, Repr

/-- The unit with number `n`. -/
def TextUnit.ofNat (n : Nat) : TextUnit :=
  if isHighSurrogate n || isLowSurrogate n then .half n else .whole (Char.ofNat n)

/-- The units of a string after its opening quote, and the rest. -/
def lexUnits : List Char → Option (List TextUnit × List Char)
  | [] => none
  | '"' :: cs => some ([], cs)
  | '\\' :: 'u' :: a :: b :: c :: d :: cs =>
    match Text.hexNumber [a, b, c, d] with
    | some n => (lexUnits cs).map fun r => (.ofNat n :: r.1, r.2)
    | none => none
  | '\\' :: c :: cs =>
    match unescape c with
    | some c => (lexUnits cs).map fun r => (.whole c :: r.1, r.2)
    | none => none
  | c :: cs =>
    if c.toNat < 32 ∨ c = '\\' then none else (lexUnits cs).map fun r => (.whole c :: r.1, r.2)

/-- The characters of a string, if every half of one stands before or after its other half. -/
def joinUnits : List TextUnit → Option (List Char)
  | [] => some []
  | .whole c :: us => (joinUnits us).map (c :: ·)
  | .half n :: .half m :: us =>
    if isHighSurrogate n && isLowSurrogate m then (joinUnits us).map (pairValue n m :: ·) else none
  | .half _ :: _ => none

/-- A string after its opening quote, and the rest: its characters, if it has a value. -/
def lexText (cs : List Char) : Option (Option (List Char) × List Char) :=
  (lexUnits cs).map fun r => (joinUnits r.1, r.2)

/-- The part of a number after its point. -/
def lexFraction : List Char → Option (Option (List Nat) × List Char)
  | '.' :: cs =>
    match takeDigits cs with
    | ([], _) => none
    | (ds, rest) => some (some ds, rest)
  | cs => some (none, cs)

/-- The digits of an exponent, the sign having been read. -/
def lexExponentDigits (negative : Bool) (cs : List Char) : Option (Option Int × List Char) :=
  match takeDigits cs with
  | ([], _) => none
  | (ds, rest) =>
    let n : Int := digitsValue ds
    some (some (if negative then -n else n), rest)

/-- The exponent of a number. -/
def lexExponent : List Char → Option (Option Int × List Char)
  | 'e' :: '+' :: cs | 'E' :: '+' :: cs => lexExponentDigits false cs
  | 'e' :: '-' :: cs | 'E' :: '-' :: cs => lexExponentDigits true cs
  | 'e' :: cs | 'E' :: cs => lexExponentDigits false cs
  | cs => some (none, cs)

/-- A number without its sign, and the rest. It has no leading zero. -/
def lexNumber (negative : Bool) (cs : List Char) : Option (Numeral × List Char) := do
  let (whole, cs) := takeDigits cs
  match whole with
  | [] => none
  | 0 :: _ :: _ => none
  | whole =>
    let (fraction, cs) ← lexFraction cs
    let (exponent, cs) ← lexExponent cs
    return (.ofLexeme ⟨negative, whole, fraction, exponent⟩, cs)

/-- The token that begins with `c`, and the rest. -/
def lexToken (c : Char) (cs : List Char) : Option (Token × List Char) :=
  match c, cs with
  | '[', cs => some (.listOpen, cs)
  | ']', cs => some (.listClose, cs)
  | '{', cs => some (.mapOpen, cs)
  | '}', cs => some (.mapClose, cs)
  | ',', cs => some (.comma, cs)
  | ':', cs => some (.colon, cs)
  | 'n', 'u' :: 'l' :: 'l' :: cs => some (.null, cs)
  | 't', 'r' :: 'u' :: 'e' :: cs => some (.flag true, cs)
  | 'f', 'a' :: 'l' :: 's' :: 'e' :: cs => some (.flag false, cs)
  | '"', cs => (lexText cs).map fun r => (.text (r.1.map String.ofList), r.2)
  | '-', cs => (lexNumber true cs).map fun r => (.number r.1, r.2)
  | c, cs =>
    if c.isDigit then (lexNumber false (c :: cs)).map fun r => (.number r.1, r.2) else none

/-- The tokens of a text, with at most `n` steps. -/
def lex : Nat → List Char → List Token
  | 0, _ => []
  | _ + 1, [] => []
  | n + 1, c :: cs =>
    if isSpace c then lex n cs
    else
      match lexToken c cs with
      | some (t, rest) => t :: lex n rest
      | none => [.broken]

/-- The tokens of a text. Every step takes a character. -/
def tokens (cs : List Char) : List Token := lex (cs.length + 1) cs

end WindowTally.Json
