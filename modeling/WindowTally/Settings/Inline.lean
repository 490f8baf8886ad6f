import WindowTally.Decimal.Written
import WindowTally.Settings.Tree
import WindowTally.Text.CodeRanges
import WindowTally.Text.Escapes

/-!
# Settings in one line

The value of a variable can be more than text: `true` and `false`, numbers, quoted
text, a single quoted character, lists `[a, b]` and tables `{a = 1, b = 2}` are
read as what they look like. A value that is none of these, or that goes on after
it, is text as it stands; `Setting.ofLine` therefore reads every value.
-/
namespace WindowTally

namespace Inline

/-- The white space between the parts of a value. -/
def isSpace (c : Char) : Bool := c = ' ' || c = '\t' || c = '\n' || c = '\x0c' || c = '\r'

/-- Whether a bare word ends before a character. -/
def endsWord (c : Char) : Bool := c = ',' || c = '{' || c = '}' || c = '[' || c = ']'

/-- Whether a character belongs to the unquoted name of an entry. -/
def isNameChar (c : Char) : Bool := c.isAlphanum || c = '_' || c = '-'

/-- The character that a backslash and a letter stand for. -/
def unescape (c : Char) : Option Char :=
  if c = '"' ∨ c = '\\' then some c
  else if c = 'b' then some '\x08'
  else if c = 'f' then some '\x0c'
  else if c = 'n' then some '\n'
  else if c = 'r' then some '\r'
  else if c = 't' then some '\t'
  else none

/-- Whether a character stands for itself between quotes: control characters do not. -/
def isPlain (c : Char) : Bool := c = '\t' || (' ' ≤ c && c ≠ '\x7f')

/-- Quoted text after its opening quote, and the rest. -/
def quoted : List Char → Option (List Char × List Char)
  | [] => none
  | '"' :: cs => some ([], cs)
  | '\\' :: 'u' :: a :: b :: c :: d :: cs => do
    let value ← Text.scalarValue (← Text.hexNumber [a, b, c, d])
    let (text, cs) ← quoted cs
    return (value :: text, cs)
  | '\\' :: 'U' :: a :: b :: c :: d :: e :: f :: g :: h :: cs => do
    let value ← Text.scalarValue (← Text.hexNumber [a, b, c, d, e, f, g, h])
    let (text, cs) ← quoted cs
    return (value :: text, cs)
  | '\\' :: c :: cs => do
    let value ← unescape c
    let (text, cs) ← quoted cs
    return (value :: text, cs)
  | c :: cs =>
    if isPlain c ∧ c ≠ '\\' then (quoted cs).map fun r => (c :: r.1, r.2) else none

/-- What a bare word means: a number if it has a point and is one, an integer that fits 64 bits
with or without a sign, or text. -/
def word (cs : List Char) : Setting :=
  if cs.contains '.' && (Decimal.Written.parse? cs).isSome then .real
  else
    match Decimal.integer? cs with
    | some n => if Int64.minValue.toInt ≤ n ∧ n < UInt64.size then .integer n else .text (String.ofList cs)
    | none => .text (String.ofList cs)

/-- The name of an entry, and the rest. -/
def name : List Char → Option (String × List Char)
  | '"' :: cs => (quoted cs).map fun r => (String.ofList r.1, r.2)
  | cs =>
    match cs.takeWhile isNameChar with
    | [] => none
    | n => some (String.ofList n, cs.dropWhile isNameChar)

mutual

/-- A value with the white space around it, and the rest; `n` bounds the steps. -/
def value : Nat → List Char → Option (Setting × List Char)
  | 0, _ => none
  | n + 1, cs => do
    let (v, cs) ← match cs.dropWhile isSpace with
      | 't' :: 'r' :: 'u' :: 'e' :: cs => some (.flag true, cs)
      | 'f' :: 'a' :: 'l' :: 's' :: 'e' :: cs => some (.flag false, cs)
      | '{' :: cs => (entries n [] cs).map fun r => (.table r.1, r.2)
      | '[' :: cs => (items n cs).map fun r => (.list r.1, r.2)
      | '"' :: cs => (quoted cs).map fun r => (.text (String.ofList r.1), r.2)
      | '\'' :: c :: '\'' :: cs => some (.text (String.singleton c), cs)
      | '\'' :: _ => none
      | cs =>
        let stays := fun c => !endsWord c
        some (word (Text.trim (cs.takeWhile stays)), cs.dropWhile stays)
    return (v, cs.dropWhile isSpace)

/-- The items of a list up to its closing bracket. -/
def items : Nat → List Char → Option (List Setting × List Char)
  | 0, _ => none
  | _ + 1, ']' :: cs => some ([], cs)
  | n + 1, cs => do
    let (v, cs) ← value n cs
    match cs with
    | ',' :: cs => (items n cs).map fun r => (v :: r.1, r.2)
    | ']' :: cs => some ([v], cs)
    | _ => none

/-- The entries of a table up to its closing bracket, after the entries `es`. -/
def entries : Nat → List (String × Setting) → List Char →
    Option (List (String × Setting) × List Char)
  | 0, _, _ => none
  | _ + 1, es, '}' :: cs => some (es, cs)
  | n + 1, es, cs => do
    let (k, cs) ← name (cs.dropWhile isSpace)
    match cs.dropWhile isSpace with
    | '=' :: cs =>
      let (v, cs) ← value n cs
      let es := Setting.assign k v es
      match cs with
      | ',' :: cs => entries n es cs
      | '}' :: cs => some (es, cs)
      | _ => none
    | _ => none

end

end Inline

/-- What a line of text says. Every step of reading a value takes a character, but for one to begin
with. -/
def Setting.ofLine (s : String) : Setting :=
  match Inline.value (2 * s.length + 1) s.toList with
  | some (v, []) => v
  | _ => .text s

end WindowTally
