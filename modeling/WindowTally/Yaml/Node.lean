import WindowTally.Yaml.Place

/-!
# Nodes

What a YAML document consists of: scalars, lists and maps, any of which may have a
tag. Aliases do not occur: they are replaced by the nodes that they stand for when
the document is read.
-/
namespace WindowTally.Yaml

/-- A node of a document. -/
inductive Node where
  /-- Only a plain scalar can be more than text. -/
  | scalar (tag : Option (List Char)) (plain : Bool) (text : List Char)
  | list (tag : Option (List Char)) (items : List Node)
  | map (tag : Option (List Char)) (entries : List (Node × Node))
  deriving Repr

namespace Node

/-- The node where none is written. -/
def empty (tag : Option (List Char)) : Node := scalar tag true []

/-- The tag that says no more than that a scalar is a scalar. -/
def plainTag : List Char := ['!']

/-- Give a written node a tag. -/
def withTag (tag : Option (List Char)) : Node → Node
  | scalar old plain text =>
    if tag = some plainTag then scalar old plain text else scalar (tag.or old) plain text
  | list old items => list (tag.or old) items
  | map old entries => map (tag.or old) entries

/-- The text of a node, if it is a scalar. -/
def text? : Node → Option (List Char)
  | scalar _ _ text => some text
  | _ => none

mutual

/-- How many lists and maps are inside each other. -/
def depth : Node → Nat
  | scalar _ _ _ => 0
  | list _ items => itemsDepth items + 1
  | map _ entries => entriesDepth entries + 1

def itemsDepth : List Node → Nat
  | [] => 0
  | n :: ns => max n.depth (itemsDepth ns)

def entriesDepth : List (Node × Node) → Nat
  | [] => 0
  | (k, v) :: es => max (max k.depth v.depth) (entriesDepth es)

end

end Node

/-- The anchors of a document: names and the numbers of the nodes they were last given to, and the
nodes that are complete. -/
structure Anchors where
  names : List (List Char × Nat) := []
  nodes : List (Nat × Node) := []
  deriving Repr

namespace Anchors

/-- Give a name to a node that begins here; also the number of the node. -/
def begin (a : Anchors) (name : List Char) : Nat × Anchors :=
  (a.names.length, { a with names := (name, a.names.length) :: a.names })

/-- The node with number `n` is complete. -/
def complete (a : Anchors) (n : Nat) (node : Node) : Anchors :=
  { a with nodes := (n, node) :: a.nodes }

/-- The node that a name stands for. A node cannot stand inside itself. -/
def node? (a : Anchors) (name : List Char) : Option Node := do
  a.nodes.lookup (← a.names.lookup name)

end Anchors

end WindowTally.Yaml
