import WindowTally.Yaml.Structure

/-!
# Documents

A text holds one document: directives, which three dashes have to follow, or just
the node, between three dashes and three points that may be left out.
-/
namespace WindowTally.Yaml

/-- Read the directives before a document. -/
def readDirectives : Nat → Directives → List Place → Option (Directives × List Place)
  | 0, _, _ => none
  | n + 1, d, ps =>
    match (skip true ps).2 with
    | p :: rest =>
      if p.char = '%' ∧ p.column = 0 then do
        let (d, ps) ← d.read rest
        readDirectives n d ps
      else some (d, p :: rest)
    | [] => some (d, [])

/-- Whether nothing follows a document but marks of its end. -/
def nothingFollows : Nat → List Place → Bool
  | 0, _ => false
  | n + 1, ps =>
    match (skip false ps).2 with
    | [] => true
    | rest => atMarker '.' rest && nothingFollows n (rest.drop 3)

/-- The node of a document. An empty text is an empty node. -/
def read (text : String) : Option Node := do
  guard (text.toList.all isAllowed)
  let ps := places text.toList
  let ps := if at? '\ufeff' ps then ps.drop 1 else ps
  let (d, rest) ← readDirectives (ps.length + 1) {} ps
  let start := Scan.mk (if atMarker '-' rest then rest.drop 3 else rest) {} d.allHandles
  guard (atMarker '-' rest || (!d.version && d.handles.isEmpty && !atMarker '.' rest))
  let (node, finish) ← (blockNode (steps ps) (-1) false (!atMarker '-' rest) {}).run start
  guard (nothingFollows (ps.length + 1) finish.rest)
  return node

end WindowTally.Yaml
