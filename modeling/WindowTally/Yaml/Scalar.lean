import WindowTally.Text.Escapes
import WindowTally.Yaml.Place

/-!
# Scalars on the lines of a text

A plain or quoted scalar may go on over several lines. White space inside a line is
kept; a line end with the blanks around it becomes a space, and of several line
ends all but the first are kept (`Pending.text`).

* `plain` reads a scalar without quotes, which ends before a comment, before a
  colon with a gap after it, and where the indentation ends,
* `singleQuoted` and `doubleQuoted` read up to the closing quote.
-/
namespace WindowTally.Yaml

/-- White space that has been passed over inside a scalar. -/
inductive Pending where
  | blanks (cs : List Char)
  /-- Line ends: the first one, unless it was escaped, and the others. -/
  | breaks (first : Option Char) (others : List Char)
  deriving DecidableEq, Repr

namespace Pending

def none : Pending := blanks []

/-- One more blank; those around a line end are dropped. -/
def blank (c : Char) : Pending → Pending
  | blanks cs => blanks (cs ++ [c])
  | breaks first others => breaks first others

/-- One more line end; it drops the blanks before it. -/
def lineEnd (c : Char) : Pending → Pending
  | blanks _ => breaks (some c) []
  | breaks first others => breaks first (others ++ [c])

/-- What the white space amounts to. -/
def text : Pending → List Char
  | blanks cs => cs
  | breaks (some '\n') [] => [' ']
  | breaks (some '\n') others => others
  | breaks first others => first.toList ++ others

/-- Whether nothing has been passed over. -/
def isNone : Pending → Bool
  | blanks [] => true
  | _ => false

/-- Whether a line has ended. -/
def isBreak : Pending → Bool
  | breaks _ _ => true
  | _ => false

end Pending

/-- Put characters before the text that has been read. -/
def before (cs : List Char) (r : List Char × List Place) : List Char × List Place :=
  (cs ++ r.1, r.2)

/-- Whether a character is one of the indicators of brackets. -/
def isBracket (c : Char) : Bool := c = '[' || c = ']' || c = '{' || c = '}'

/-- Whether the word of a plain scalar ends before `ps`. -/
def endsPlain (inside : Bool) (ps : List Place) : Bool :=
  atIndicator ':' ps ||
    match ps with
    | p :: _ => inside && (p.char = ',' || isBracket p.char)
    | [] => true

/-- Whether a colon comes next that may not stand in a plain scalar inside brackets. -/
def strayColon : List Place → Bool
  | p :: q :: _ => p.char = ':' && (q.char = ',' || q.char = '?' || isBracket q.char)
  | _ => false

/-- Read a plain scalar on, `pending` having been passed over. Outside of brackets its lines are
indented by `indent` columns at least. -/
def plainFrom (inside : Bool) (indent : Int) :
    Pending → List Place → Option (List Char × List Place)
  | _, [] => some ([], [])
  | pending, p :: ps =>
    if isBlank p.char then
      if pending.isBreak && p.char = '\t' && p.column < indent then none
      else plainFrom inside indent (pending.blank p.char) ps
    else if isBreak p.char then plainFrom inside indent (pending.lineEnd p.char) ps
    else if !pending.isNone &&
        (!inside && p.column < indent || atBoundary (p :: ps) || p.char = '#') then
      some ([], p :: ps)
    else if inside && strayColon (p :: ps) then none
    else if endsPlain inside (p :: ps) then some ([], p :: ps)
    else (plainFrom inside indent .none ps).map (before (pending.text ++ [p.char]))

/-- Read a plain scalar. -/
def plain (inside : Bool) (indent : Int) (ps : List Place) : Option (List Char × List Place) :=
  plainFrom inside indent .none ps

/-- Whether a plain scalar can begin here. -/
def beginsPlain (inside : Bool) : List Place → Bool
  | [] => false
  | p :: ps =>
    if p.char = '-' then !atGap ps
    else if p.char = '?' || p.char = ':' then !inside && !atGap ps
    else
      !isBlank p.char && !isBreak p.char && !isBracket p.char &&
        !",#&*!|>'\"%@`".toList.contains p.char

/-- Read a single-quoted scalar on; a quote in it is written twice. -/
def singleQuotedFrom : Pending → List Place → Option (List Char × List Place)
  | _, [] => none
  | pending, p :: ps =>
    if isBlank p.char then singleQuotedFrom (pending.blank p.char) ps
    else if isBreak p.char then singleQuotedFrom (pending.lineEnd p.char) ps
    else if atBoundary (p :: ps) then none
    else if p.char = '\'' then
      match ps with
      | q :: qs =>
        if q.char = '\'' then
          (singleQuotedFrom .none qs).map (before (pending.text ++ ['\'']))
        else some (pending.text, ps)
      | [] => some (pending.text, [])
    else (singleQuotedFrom .none ps).map (before (pending.text ++ [p.char]))

/-- Read a single-quoted scalar after its opening quote. -/
def singleQuoted (ps : List Place) : Option (List Char × List Place) := singleQuotedFrom .none ps

/-- The characters that a backslash and a letter stand for. -/
def escapes : List (Char × Char) := [
  ('0', '\x00'), ('a', '\x07'), ('b', '\x08'), ('t', '\t'), ('\t', '\t'), ('n', '\n'),
  ('v', '\x0b'), ('f', '\x0c'), ('r', '\r'), ('e', '\x1b'), (' ', ' '), ('"', '"'), ('/', '/'),
  ('\\', '\\'), ('N', '\x85'), ('_', '\xa0'), ('L', '\u2028'), ('P', '\u2029')]

/-- How many hexadecimal digits follow a backslash and a letter. -/
def escapeWidth (c : Char) : Nat :=
  if c = 'x' then 2 else if c = 'u' then 4 else if c = 'U' then 8 else 0

/-- The character of an escape after its backslash, and how many more characters it has. -/
def unescape (c : Char) (ps : List Place) : Option (Char × Nat) :=
  match escapeWidth c with
  | 0 => (escapes.lookup c).map fun value => (value, 0)
  | n + 1 => do
    let digits := ps.take (n + 1)
    guard (digits.length = n + 1)
    let value ← Text.scalarValue (← Text.hexNumber (digits.map Place.char))
    return (value, n + 1)

/-- Read a double-quoted scalar on. The next `skipped` characters belong to an escape that has been
read. -/
def doubleQuotedFrom : Pending → Nat → List Place → Option (List Char × List Place)
  | _, _, [] => none
  | pending, skipped + 1, _ :: ps => doubleQuotedFrom pending skipped ps
  | pending, 0, p :: ps =>
    if isBlank p.char then doubleQuotedFrom (pending.blank p.char) 0 ps
    else if isBreak p.char then doubleQuotedFrom (pending.lineEnd p.char) 0 ps
    else if atBoundary (p :: ps) then none
    else if p.char = '"' then some (pending.text, ps)
    else if p.char = '\\' then
      match ps with
      | q :: qs =>
        if isBreak q.char then
          (doubleQuotedFrom (.breaks none []) 1 ps).map (before pending.text)
        else
          match unescape q.char qs with
          | some (c, n) => (doubleQuotedFrom .none (n + 1) ps).map (before (pending.text ++ [c]))
          | none => none
      | [] => none
    else (doubleQuotedFrom .none 0 ps).map (before (pending.text ++ [p.char]))

/-- Read a double-quoted scalar after its opening quote. -/
def doubleQuoted (ps : List Place) : Option (List Char × List Place) :=
  doubleQuotedFrom .none 0 ps

end WindowTally.Yaml
