import WindowTally.Text.Utf8
import WindowTally.Yaml.Scalar

/-!
# Names, tags and directives

The words that begin with an indicator of their own: names of anchors, tags, and
the directives at the beginning of a document that give a meaning to the handles of
tags.
-/
namespace WindowTally.Yaml

/-- Whether a character belongs to a name or to the handle of a tag. -/
def isWordChar (c : Char) : Bool := c.isAlphanum || c = '_' || c = '-'

/-- The characters at the front that satisfy `f`, and the rest. -/
def takeChars (f : Char → Bool) (ps : List Place) : List Char × List Place :=
  ((ps.takeWhile fun p => f p.char).map Place.char, ps.dropWhile fun p => f p.char)

/-- The name of an anchor, and the rest. -/
def readName (ps : List Place) : Option (List Char × List Place) :=
  let (name, rest) := takeChars isWordChar ps
  let ends := match rest with
    | p :: _ => atGap rest || "?:,]\x7d%@`".toList.contains p.char
    | [] => true
  if name.isEmpty || !ends then none else some (name, rest)

/-- Whether a character can stand in a tag; some can only if the tag is written out. -/
def isTagChar (writtenOut : Bool) (c : Char) : Bool :=
  isWordChar c || ";/?:@&=+$.%!~*'()".toList.contains c || writtenOut && ",[]".toList.contains c

/-- The bytes of a tag, of which some are written as two digits after a percent sign. -/
def tagBytes : List Char → Option (List UInt8)
  | [] => some []
  | '%' :: a :: b :: cs => do
    return UInt8.ofNat (← Text.hexNumber [a, b]) :: (← tagBytes cs)
  | c :: cs => if c = '%' then none else (tagBytes cs).map (Utf8.encode [c] ++ ·)

/-- A tag or a part of one, and the rest. -/
def readTagText (writtenOut : Bool) (ps : List Place) : Option (List Char × List Place) := do
  let (cs, rest) := takeChars (isTagChar writtenOut) ps
  match Utf8.decode (← tagBytes cs) with
  | .ok text => return (text, rest)
  | .error _ => none

/-- What the handles of tags stand for. -/
abbrev Handles := List (List Char × List Char)

/-- The handles that every document has. -/
def standardHandles : Handles :=
  [("!".toList, "!".toList), ("!!".toList, "tag:yaml.org,2002:".toList)]

/-- A handle after its first exclamation mark, and the rest; the flag says whether a second mark
closes it. -/
def readHandle (ps : List Place) : List Char × Bool × List Place :=
  let (word, rest) := takeChars isWordChar ps
  match rest with
  | p :: ps => if p.char = '!' then ('!' :: word ++ ['!'], true, ps) else ('!' :: word, false, rest)
  | [] => ('!' :: word, false, [])

/-- A tag after its exclamation mark, and the rest, without regard to what follows. -/
def readTagBody (handles : Handles) (ps : List Place) : Option (List Char × List Place) :=
  match ps with
  | p :: rest =>
    if p.char = '<' then do
      let (tag, rest) ← readTagText true rest
      guard (!tag.isEmpty && at? '>' rest)
      return (tag, rest.drop 1)
    else do
      let (handle, closed, rest) := readHandle ps
      let (suffix, rest) ← readTagText false rest
      if closed then
        guard !suffix.isEmpty
        return ((← handles.lookup handle) ++ suffix, rest)
      else
        let suffix := handle.drop 1 ++ suffix
        if suffix.isEmpty then return (['!'], rest)
        else return ((← handles.lookup ['!']) ++ suffix, rest)
  | [] => some (['!'], [])

/-- A tag after its exclamation mark, and the rest. A gap follows it, or a comma inside brackets. -/
def readTag (handles : Handles) (inside : Bool) (ps : List Place) :
    Option (List Char × List Place) := do
  let (tag, rest) ← readTagBody handles ps
  guard (atGap rest || inside && at? ',' rest)
  return (tag, rest)

/-- What the directives of a document have said. -/
structure Directives where
  version : Bool := false
  handles : Handles := []
  deriving DecidableEq, Repr

namespace Directives

/-- All handles: the document's own, and the standard ones. -/
def allHandles (d : Directives) : Handles := d.handles ++ standardHandles

/-- Pass over blanks, of which there has to be one. -/
def gap (ps : List Place) : Option (List Place) :=
  match ps with
  | p :: ps => if isBlank p.char then some (ps.dropWhile fun p => isBlank p.char) else none
  | [] => none

/-- A number of at most nine digits, and the rest. -/
def number (ps : List Place) : Option (List Char × List Place) :=
  let (digits, rest) := takeChars Char.isDigit ps
  if digits.isEmpty || 9 < digits.length then none else some (digits, rest)

/-- Read the version: 1.1 or 1.2, once. -/
def readVersion (d : Directives) (ps : List Place) : Option (Directives × List Place) := do
  let (major, ps) ← number (ps.dropWhile fun p => isBlank p.char)
  guard (at? '.' ps)
  let (minor, ps) ← number (ps.drop 1)
  let value (ds : List Char) := ds.foldl (fun n c => n * 10 + (c.toNat - 48)) 0
  guard (!d.version && value major = 1 && (value minor = 1 || value minor = 2))
  return ({ d with version := true }, ps)

/-- Read what a handle stands for; no handle is given a meaning twice. -/
def readMeaning (d : Directives) (ps : List Place) : Option (Directives × List Place) := do
  let ps := ps.dropWhile fun p => isBlank p.char
  guard (at? '!' ps)
  let (handle, closed, ps) := readHandle (ps.drop 1)
  guard (closed || handle = ['!'])
  let (meaning, ps) ← readTagText true (← gap ps)
  guard (!meaning.isEmpty && atGap ps && (d.handles.lookup handle).isNone)
  return ({ d with handles := (handle, meaning) :: d.handles }, ps)

/-- Read a directive after its percent sign, up to the end of its line. -/
def read (d : Directives) (ps : List Place) : Option (Directives × List Place) := do
  let (name, ps) := takeChars isWordChar ps
  guard (atGap ps)
  let (d, ps) ←
    if name = "YAML".toList then d.readVersion ps
    else if name = "TAG".toList then d.readMeaning ps
    else none
  let ps := ps.dropWhile fun p => isBlank p.char
  let ps := if at? '#' ps then ps.dropWhile fun p => !isBreak p.char else ps
  match ps with
  | [] => return (d, [])
  | p :: rest => if isBreak p.char then return (d, rest) else none

end Directives

end WindowTally.Yaml
