/-!
# Characters and their places

How a YAML text is laid out in lines and columns is part of what it says, so every
character is kept with its place. Line ends are made alike first: only the line and
paragraph separators of Unicode stay what they are.

`skip` passes over what stands between tokens. `atGap` and `atBoundary` say whether
a token ends here, and whether the document does.
-/
namespace WindowTally.Yaml

/-- A character, with the line and the column it stands in, both counted from zero. -/
structure Place where
  char : Char
  line : Nat
  column : Nat
  deriving DecidableEq, Repr

def isBreak (c : Char) : Bool := c = '\n' || c = '\u2028' || c = '\u2029'

def isBlank (c : Char) : Bool := c = ' ' || c = '\t'

/-- Whether a text may hold a character: no control characters but tabs and line ends. -/
def isAllowed (c : Char) : Bool :=
  c = '\t' || c = '\n' || c = '\r' || (' ' ≤ c && c ≤ '~') || c = '\x85' ||
    ('\xa0' ≤ c && c ≠ '\ufffe' && c ≠ '\uffff')

/-- Make all line ends line feeds, but for the separators. -/
def unifyBreaks : List Char → List Char
  | [] => []
  | '\r' :: '\n' :: cs => '\n' :: unifyBreaks cs
  | c :: cs => (if c = '\r' ∨ c = '\x85' then '\n' else c) :: unifyBreaks cs

/-- The characters of a text with their places, the first one standing at `line` and `column`. -/
def placesFrom (line column : Nat) : List Char → List Place
  | [] => []
  | c :: cs =>
    ⟨c, line, column⟩ ::
      if isBreak c then placesFrom (line + 1) 0 cs else placesFrom line (column + 1) cs

/-- The places of a text. -/
def places (cs : List Char) : List Place := placesFrom 0 0 (unifyBreaks cs)

/-- Whether the next character is `c`. -/
def at? (c : Char) : List Place → Bool
  | p :: _ => p.char = c
  | [] => false

/-- Whether a blank, a line end or the end of the text comes next. -/
def atGap : List Place → Bool
  | p :: _ => isBlank p.char || isBreak p.char
  | [] => true

/-- Whether an indicator comes next: the character `c`, and a gap after it. -/
def atIndicator (c : Char) : List Place → Bool
  | p :: ps => p.char = c && atGap ps
  | [] => false

/-- Whether three times the character `c` come next, alone at the beginning of a line. -/
def atMarker (c : Char) : List Place → Bool
  | p :: q :: r :: ps =>
    p.column = 0 && p.char = c && q.char = c && r.char = c && atGap ps
  | _ => false

/-- Whether a document begins or ends here. -/
def atBoundary (ps : List Place) : Bool := atMarker '-' ps || atMarker '.' ps

/-- Pass over blanks, comments and line ends. `fresh` says whether a block may begin here, as it
may after a line end; a tab is not passed over then, unless tabs are harmless. The first flag says
whether a comment has begun. -/
def skipFrom (tabs : Bool) : Bool → Bool → List Place → Bool × List Place
  | _, fresh, [] => (fresh, [])
  | true, fresh, p :: ps => skipFrom tabs (!isBreak p.char) (fresh || isBreak p.char) ps
  | false, fresh, p :: ps =>
    if p.char = ' ' || p.char = '\t' && (tabs || !fresh) then skipFrom tabs false fresh ps
    else if p.char = '#' then skipFrom tabs true fresh ps
    else if isBreak p.char then skipFrom tabs false true ps
    else (fresh, p :: ps)

/-- Pass over what stands between the tokens of a block; says whether a block may begin after it. -/
def skip (fresh : Bool) (ps : List Place) : Bool × List Place := skipFrom false false fresh ps

/-- Pass over what stands between tokens inside brackets. -/
def skipInside (ps : List Place) : List Place := (skipFrom true false false ps).2

end WindowTally.Yaml
