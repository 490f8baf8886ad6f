import WindowTally.Yaml.BlockScalar
import WindowTally.Yaml.Node
import WindowTally.Yaml.Properties

/-!
# How nodes are put together

Inside brackets the items of a list and the entries of a map are separated by
commas. Elsewhere the columns of a text say what belongs together: the items of a
block list and the keys of a block map stand below each other, and what belongs to
an item or a key is indented further. Only the items of a list that is the value of
a key may stand in the column of the key.

A key is a scalar, an alias or a node in brackets with a colon after it on the same
line, or what follows a question mark. That an empty node is meant is seen from
what comes next.

Every function that reads takes a bound on the number of its steps first; `steps`
computes one from the text that there is to read.
-/
namespace WindowTally.Yaml

/-- Where reading has got to, and the anchors that have been met. -/
structure Scan where
  rest : List Place
  anchors : Anchors
  handles : Handles
  deriving Repr

/-- Reads something from the front of a text, or fails. -/
abbrev Read (α : Type) := StateT Scan Option α

namespace Read

/-- The rest of the text. -/
def rest : Read (List Place) := do return (← get).rest

/-- Go on with another rest. -/
def continueWith (ps : List Place) : Read Unit := modify fun s => { s with rest := ps }

/-- Pass over characters. -/
def drop (n : Nat) : Read Unit := modify fun s => { s with rest := s.rest.drop n }

/-- Read with a function on the rest of the text. -/
def of {α : Type} (f : List Place → Option (α × List Place)) : Read α := do
  match f (← rest) with
  | some (a, ps) => continueWith ps; return a
  | none => failure

/-- Pass over what stands between the tokens of a block; says whether a block may begin after it. -/
def skipBlock (fresh : Bool) : Read Bool := do
  let (fresh, ps) := skip fresh (← rest)
  continueWith ps
  return fresh

/-- Pass over what stands between tokens inside brackets. -/
def skipBrackets : Read Unit := do continueWith (skipInside (← rest))

end Read

/-- What stands before a node: an anchor, of which the number is kept, and a tag. -/
structure Properties where
  anchor : Option Nat := none
  tag : Option (List Char) := none
  deriving DecidableEq, Repr

namespace Properties

def isEmpty (p : Properties) : Bool := p.anchor.isNone && p.tag.isNone

/-- The properties of both, if they do not say the same thing twice. -/
def union (p q : Properties) : Option Properties :=
  if p.anchor.isSome && q.anchor.isSome || p.tag.isSome && q.tag.isSome then none
  else some ⟨p.anchor.or q.anchor, p.tag.or q.tag⟩

/-- Read an anchor or a tag, and what stands between it and the next token. Says whether a line
has ended in between. -/
def readOne (inside : Bool) (p : Properties) : Read (Properties × Bool) := do
  let ps ← Read.rest
  let p ←
    if at? '&' ps && p.anchor.isNone then
      Read.drop 1
      let name ← Read.of readName
      let (n, anchors) := (← get).anchors.begin name
      modify fun s => { s with anchors := anchors }
      pure { p with anchor := some n }
    else if at? '!' ps && p.tag.isNone then
      Read.drop 1
      let handles := (← get).handles
      let tag ← Read.of (readTag handles inside)
      pure { p with tag := some tag }
    else return (p, false)
  if inside then
    Read.skipBrackets
    return (p, false)
  else return (p, ← Read.skipBlock false)

/-- Read the properties that stand before a node, outside of brackets on one line. -/
def read (inside : Bool) : Read (Properties × Bool) := do
  let (p, ended) ← readOne inside {}
  if ended then return (p, true) else readOne inside p

/-- Give a node its properties. -/
def give (p : Properties) (node : Node) : Read Node := do
  match p.anchor with
  | some n => modify fun s => { s with anchors := s.anchors.complete n node }
  | none => pure ()
  return node

/-- Give properties to a node that is written. -/
def label (p : Properties) (node : Node) : Read Node := p.give (node.withTag p.tag)

/-- Give properties to a node that is not written. -/
def labelEmpty (p : Properties) : Read Node := p.give (.empty p.tag)

end Properties

/-- The longest that a key can be. -/
def longestKey : Nat := 1024

/-- Whether a key that began at `start` can end at `ps`: on its line, and not too far away. -/
def keyEnds (start ps : List Place) : Bool :=
  match start, ps with
  | p :: _, q :: _ => p.line = q.line && start.length - ps.length ≤ longestKey
  | _, _ => false

/-- Whether a colon that makes a key of what began at `start` comes next; it is passed over then. -/
def readColon (start : List Place) : Read Bool := do
  let ps := (← Read.rest).dropWhile fun p => isBlank p.char
  if atIndicator ':' ps && keyEnds start ps then
    Read.continueWith (ps.drop 1)
    return true
  else return false

/-- Whether a block that is indented to a column has ended. -/
def blockEnds (column : Int) : List Place → Bool
  | [] => true
  | p :: ps => p.column < column || atBoundary (p :: ps)

/-- Whether no node is written at `ps` inside the block in the column `outer`. The items of a list
may stand in that column if `level` says so. -/
def nodeMissing (outer : Int) (level : Bool) (ps : List Place) : Bool :=
  if level && atIndicator '-' ps then blockEnds outer ps else blockEnds (outer + 1) ps

/-- The column of the next character. -/
def column (ps : List Place) : Int :=
  match ps with
  | p :: _ => p.column
  | [] => -1

/-- Enough steps to read any text: no more than six are taken before a character is passed over. -/
def steps (ps : List Place) : Nat := 6 * ps.length + 6

/-- Whether an entry inside brackets ends here. -/
def entryEnds : List Place → Bool
  | [] => true
  | p :: _ => p.char = ',' || p.char = ']' || p.char = '}' || p.char = ':'

mutual

/-- Read a node that has no properties and is no block list or block map. Inside brackets there are
no block scalars either. -/
def content (n : Nat) (inside : Bool) (outer : Int) (p : Properties) : Read Node :=
  match n with
  | 0 => failure
  | n + 1 => do
    let ps ← Read.rest
    if atBoundary ps then failure
    else if at? '*' ps then
      guard p.isEmpty
      Read.drop 1
      let name ← Read.of readName
      match (← get).anchors.node? name with
      | some node => return node
      | none => failure
    else if at? '\'' ps then
      Read.drop 1
      return .scalar none false (← Read.of singleQuoted)
    else if at? '"' ps then
      Read.drop 1
      return .scalar none false (← Read.of doubleQuoted)
    else if at? '[' ps then
      Read.drop 1
      let entries ← entriesInside n outer ']'
      return .list none (entries.map fun e =>
        match e.2 with
        | some v => .map none [(e.1, v)]
        | none => e.1)
    else if at? '{' ps then
      Read.drop 1
      let entries ← entriesInside n outer '}'
      return .map none (entries.map fun e => (e.1, e.2.getD (.empty none)))
    else if at? '|' ps && !inside then
      Read.drop 1
      return .scalar none false (← Read.of (blockScalar true outer))
    else if at? '>' ps && !inside then
      Read.drop 1
      return .scalar none false (← Read.of (blockScalar false outer))
    else
      guard (beginsPlain inside ps)
      return .scalar none true (← Read.of (plain inside (outer + 1)))

/-- Read the entries up to the closing bracket. -/
def entriesInside (n : Nat) (outer : Int) (close : Char) : Read (List (Node × Option Node)) :=
  match n with
  | 0 => failure
  | n + 1 => do
    Read.skipBrackets
    if at? close (← Read.rest) then
      Read.drop 1
      return []
    else
      let e ← entryInside n outer
      Read.skipBrackets
      let ps ← Read.rest
      if at? ',' ps then
        Read.drop 1
        return e :: (← entriesInside n outer close)
      else
        guard (at? close ps)
        Read.drop 1
        return [e]

/-- Read an entry inside brackets: a node, or a key with a value. -/
def entryInside (n : Nat) (outer : Int) : Read (Node × Option Node) :=
  match n with
  | 0 => failure
  | n + 1 => do
    let start ← Read.rest
    if at? '?' start then
      Read.drop 1
      let k ← valueInside n outer
      Read.skipBrackets
      if at? ':' (← Read.rest) then
        Read.drop 1
        return (k, some (← valueInside n outer))
      else return (k, some (.empty none))
    else
      let k ← nodeInside n outer
      Read.skipBrackets
      let ps ← Read.rest
      if at? ':' ps && keyEnds start ps then
        Read.drop 1
        return (k, some (← valueInside n outer))
      else return (k, none)

/-- Read a node inside brackets, which may be empty. -/
def valueInside (n : Nat) (outer : Int) : Read Node :=
  match n with
  | 0 => failure
  | n + 1 => do
    Read.skipBrackets
    if entryEnds (← Read.rest) then return .empty none else nodeInside n outer

/-- Read a node inside brackets, which may be empty only if it has properties. -/
def nodeInside (n : Nat) (outer : Int) : Read Node :=
  match n with
  | 0 => failure
  | n + 1 => do
    let (p, _) ← Properties.read true
    if !p.isEmpty && entryEnds (← Read.rest) then p.labelEmpty
    else p.label (← content n true outer p)

end

mutual

/-- Read a node in a block that stands in the column `outer`. `level` says whether the items of a
list may stand in that column too, `fresh` whether a block may begin on this line, and `p` what the
node has been given on an earlier line. -/
def blockNode (n : Nat) (outer : Int) (level fresh : Bool) (p : Properties) : Read Node :=
  match n with
  | 0 => failure
  | n + 1 => do
    let fresh ← Read.skipBlock fresh
    let start ← Read.rest
    if nodeMissing outer level start then p.labelEmpty
    else if fresh && atIndicator '-' start then
      p.label (.list none (← blockItems n (column start) (outer = column start)))
    else if fresh && atIndicator '?' start then
      p.label (.map none (← blockEntries n (column start)))
    else
      let (q, ended) ← Properties.read false
      if ended then
        match p.union q with
        | some p => blockNode n outer level true p
        | none => failure
      else
        let ps ← Read.rest
        if ps.isEmpty || fresh && !q.isEmpty && atIndicator ':' ps then
          if fresh && (← readColon start) then
            let k ← q.labelEmpty
            p.label (.map none (← blockPair n (column start) k))
          else
            match p.union q with
            | some p => p.labelEmpty
            | none => failure
        else
          let node ← content n false outer q
          if fresh && (← readColon start) then
            let k ← q.label node
            p.label (.map none (← blockPair n (column start) k))
          else
            guard (p.isEmpty || !at? '*' ps)
            match p.union q with
            | some p => p.label node
            | none => failure

/-- Read the value of the key `k` of a block map, and the entries after it. -/
def blockPair (n : Nat) (col : Int) (k : Node) : Read (List (Node × Node)) :=
  match n with
  | 0 => failure
  | n + 1 => do
    let v ← blockNode n col true false {}
    return (k, v) :: (← blockEntries n col)

/-- Read the entries of a block map in a column. -/
def blockEntries (n : Nat) (col : Int) : Read (List (Node × Node)) :=
  match n with
  | 0 => failure
  | n + 1 => do
    let _ ← Read.skipBlock false
    let start ← Read.rest
    if blockEnds col start then return []
    else
      guard (column start = col)
      if atIndicator '?' start then
        Read.drop 1
        let k ← blockNode n col true true {}
        let _ ← Read.skipBlock false
        let ps ← Read.rest
        let v ←
          if column ps = col && atIndicator ':' ps then
            Read.drop 1
            blockNode n col true true {}
          else pure (.empty none)
        return (k, v) :: (← blockEntries n col)
      else
        let (q, ended) ← Properties.read false
        guard !ended
        let k ←
          if !q.isEmpty && atIndicator ':' (← Read.rest) then q.labelEmpty
          else do q.label (← content n false col q)
        guard (← readColon start)
        blockPair n col k

/-- Read the items of a block list in a column. If the list is the value of a key in that column,
it ends where something else stands there. -/
def blockItems (n : Nat) (col : Int) (level : Bool) : Read (List Node) :=
  match n with
  | 0 => failure
  | n + 1 => do
    let _ ← Read.skipBlock false
    let start ← Read.rest
    if blockEnds col start then return []
    else
      guard (column start = col)
      if atIndicator '-' start then
        Read.drop 1
        let v ← blockNode n col false true {}
        return v :: (← blockItems n col level)
      else
        guard level
        return []

end

end WindowTally.Yaml
