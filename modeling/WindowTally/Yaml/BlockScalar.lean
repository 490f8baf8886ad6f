import WindowTally.Yaml.Scalar

/-!
# Block scalars

After `|` the lines of a block scalar are its text, after `>` they are folded. The
scalar ends with the first line that is indented less. The indentation is that of
the first line with text in it, unless a digit in the header gives it; the header
also says what becomes of the line ends after the last line.
-/
namespace WindowTally.Yaml

/-- What becomes of the line ends after the last line of a block scalar. -/
inductive Chomp where
  | clip
  | strip
  | keep
  deriving DecidableEq, Repr

/-- What the header of a block scalar says. -/
structure Header where
  chomp : Chomp := .clip
  /-- By how much the lines are indented, if it is given. -/
  increment : Option Nat := none
  deriving DecidableEq, Repr

namespace Header

/-- Read how line ends are chomped. -/
def readChomp (h : Header) : List Place → Header × List Place
  | p :: ps =>
    if p.char = '+' then ({ h with chomp := .keep }, ps)
    else if p.char = '-' then ({ h with chomp := .strip }, ps)
    else (h, p :: ps)
  | [] => (h, [])

/-- Read a digit for the indentation; a zero is none. -/
def readIncrement (h : Header) : List Place → Option (Header × List Place)
  | p :: ps =>
    if p.char = '0' then none
    else if p.char.isDigit then some ({ h with increment := some (p.char.toNat - 48) }, ps)
    else some (h, p :: ps)
  | [] => some (h, [])

/-- Read the two parts of a header in either order, and the rest of its line. -/
def read (ps : List Place) : Option (Header × List Place) := do
  let (h, ps) := readChomp {} ps
  let (h, ps) ← readIncrement h ps
  let (h, ps) := if h.chomp = .clip && h.increment.isSome then readChomp h ps else (h, ps)
  let ps := ps.dropWhile fun p => isBlank p.char
  let ps := if at? '#' ps then ps.dropWhile fun p => !isBreak p.char else ps
  match ps with
  | [] => return (h, [])
  | p :: ps => if isBreak p.char then return (h, ps) else none

end Header

/-- The column of the first text, or of the longest empty line before it; a tab before the text is
not allowed. -/
def textColumn (widest : Nat) : List Place → Option Nat
  | [] => some widest
  | p :: ps =>
    if p.char = ' ' then textColumn widest ps
    else if p.char = '\t' then none
    else if isBreak p.char then textColumn (max widest p.column) ps
    else some (max widest p.column)

/-- Where reading a block scalar has got to. -/
structure BlockState where
  /-- A line with text is being read. -/
  inLine : Bool := false
  /-- The end of the last line with text. -/
  lineEnd : Option Char := none
  /-- The ends of the empty lines after it. -/
  emptyLines : List Char := []
  /-- The last line with text began with a blank. -/
  indented : Bool := false
  deriving DecidableEq, Repr

/-- What stands between the last line with text and the next one, which begins with `c`. Folding
makes a space of a single line end between lines that begin with no blank. -/
def BlockState.joint (s : BlockState) (literal : Bool) (c : Char) : List Char :=
  if !literal && s.lineEnd = some '\n' && !s.indented && !isBlank c then
    if s.emptyLines.isEmpty then [' '] else s.emptyLines
  else s.lineEnd.toList ++ s.emptyLines

/-- What is kept of the line ends after the last line. -/
def BlockState.tail (s : BlockState) : Chomp → List Char
  | .strip => []
  | .clip => s.lineEnd.toList
  | .keep => s.lineEnd.toList ++ s.emptyLines

/-- Read the lines of a block scalar that are indented to the column `indent`. -/
def blockLines (literal : Bool) (chomp : Chomp) (indent : Nat) :
    BlockState → List Place → Option (List Char × List Place)
  | s, [] => some (s.tail chomp, [])
  | s, p :: ps =>
    if s.inLine then
      if isBreak p.char then
        blockLines literal chomp indent { s with inLine := false, lineEnd := some p.char } ps
      else (blockLines literal chomp indent s ps).map (before [p.char])
    else if p.column < indent && p.char = ' ' then blockLines literal chomp indent s ps
    else if p.column < indent && p.char = '\t' then none
    else if isBreak p.char then
      blockLines literal chomp indent { s with emptyLines := s.emptyLines ++ [p.char] } ps
    else if p.column = indent then
      (blockLines literal chomp indent { inLine := true, indented := isBlank p.char } ps).map
        (before (s.joint literal p.char ++ [p.char]))
    else some (s.tail chomp, p :: ps)

/-- Read a block scalar after its indicator, inside a block that is indented to `outer`, or to -1
if there is none. -/
def blockScalar (literal : Bool) (outer : Int) (ps : List Place) :
    Option (List Char × List Place) := do
  let (header, ps) ← Header.read ps
  let indent ← match header.increment with
    | some n => some (outer.toNat + n)
    | none => (textColumn 0 ps).map fun column => max column (max (outer + 1) 1).toNat
  blockLines literal header.chomp indent {} ps

end WindowTally.Yaml
