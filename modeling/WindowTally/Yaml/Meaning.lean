import WindowTally.Decimal.Written
import WindowTally.Settings.Tree
import WindowTally.Text.Escapes
import WindowTally.Yaml.Document

/-!
# What documents mean as settings

A plain scalar is null, a truth value, an integer or a number if it looks like one;
any other scalar is text. A tag of the standard set decides what a scalar is,
whatever it looks like, and has to fit. Tags of one's own have no meaning here.

`Setting.ofYaml?` reads the table of settings that a text holds.
-/
namespace WindowTally.Yaml

/-- The words for null. -/
def isNull (cs : List Char) : Bool := ["null", "Null", "NULL", "~"].contains (String.ofList cs)

/-- The words for truth values. -/
def flag? (cs : List Char) : Option Bool :=
  let word := String.ofList cs
  if ["true", "True", "TRUE"].contains word then some true
  else if ["false", "False", "FALSE"].contains word then some false
  else none

/-- A text without the sign at its front. -/
def unsigned : List Char → List Char
  | '+' :: cs | '-' :: cs => cs
  | cs => cs

/-- Whether a text has digits only and begins with a zero that is not all of it; it is no number
then. -/
def hasLeadingZero (cs : List Char) : Bool :=
  match unsigned cs with
  | '0' :: d :: ds => (d :: ds).all Char.isDigit
  | _ => false

/-- A number in base `2 ^ bits`, whose digits are hexadecimal ones. -/
def based? (bits : Nat) (cs : List Char) : Option Nat := do
  guard (!cs.isEmpty)
  (← cs.mapM Text.hexValue).foldlM
    (fun n d => if d < 1 <<< bits then some (n <<< bits + d) else none) 0

/-- A natural number: decimal, or hexadecimal, octal or binary with its mark. -/
def natural? : List Char → Option Nat
  | '0' :: 'x' :: cs => based? 4 cs
  | '0' :: 'o' :: cs => based? 3 cs
  | '0' :: 'b' :: cs => based? 1 cs
  | cs => if hasLeadingZero cs then none else Decimal.natural? cs

/-- An integer of at most 128 bits. -/
def integer? (cs : List Char) : Option Int := do
  let n ← natural? (unsigned cs)
  if cs.head? = some '-' then
    if n ≤ 1 <<< 127 then some (-(n : Int)) else none
  else if n < 1 <<< 128 then some n else none

/-- Whether a text is a number: finite, or one of the words for what is not. -/
def isReal (cs : List Char) : Bool :=
  let word := String.ofList cs
  [".inf", ".Inf", ".INF", "+.inf", "+.Inf", "+.INF", "-.inf", "-.Inf", "-.INF", ".nan", ".NaN",
    ".NAN"].contains word ||
    match Decimal.Written.parse? cs with
    | some w => w.isFinite
    | none => false

/-- What a plain scalar means. -/
def ofPlain (cs : List Char) : Setting :=
  if cs.isEmpty || isNull cs then .null
  else
    match flag? cs, integer? cs with
    | some b, _ => .flag b
    | none, some n => .integer n
    | none, none =>
      if !hasLeadingZero cs && isReal cs then .real else .text (String.ofList cs)

/-- The tag of a kind of scalar in the standard set. -/
def standardTag (name : String) : List Char := "tag:yaml.org,2002:".toList ++ name.toList

/-- Whether a tag is not of the standard set but of one's own. -/
def isOwnTag (tag : Option (List Char)) : Bool := (tag.bind List.head?) = some '!'

/-- What a scalar means. -/
def ofScalar? (tag : Option (List Char)) (plain : Bool) (cs : List Char) : Option Setting :=
  match tag with
  | none => some (if plain then ofPlain cs else .text (String.ofList cs))
  | some t =>
    if isOwnTag tag then none
    else if t = standardTag "bool" then (flag? cs).map .flag
    else if t = standardTag "int" then (integer? cs).map .integer
    else if t = standardTag "float" then if isReal cs then some .real else none
    else if t = standardTag "null" then if isNull cs then some .null else none
    else some (.text (String.ofList cs))

mutual

/-- What a node means. -/
def Node.setting? : Node → Option Setting
  | scalar tag plain text => ofScalar? tag plain text
  | list tag items => if isOwnTag tag then none else (itemSettings? items).map .list
  | map tag es => if isOwnTag tag then none else (entrySettings? [] es).map .table

def Node.itemSettings? : List Node → Option (List Setting)
  | [] => some []
  | n :: ns => do return (← n.setting?) :: (← itemSettings? ns)

/-- What entries mean after the entries `earlier`. Every key has to be a scalar; the last of those
with the same text counts. -/
def Node.entrySettings? (earlier : List (String × Setting)) :
    List (Node × Node) → Option (List (String × Setting))
  | [] => some earlier
  | (k, v) :: es =>
    match k.text?, v.setting? with
    | some name, some value => entrySettings? (Setting.assign (String.ofList name) value earlier) es
    | _, _ => none

end

/-- How deep lists and maps may be inside each other. -/
def greatestDepth : Nat := 128

/-- The table that a document holds. The tag of its node has no meaning, and an empty document is
an empty table. -/
def Node.table? (node : Node) : Option Setting :=
  if greatestDepth < node.depth then none
  else
    match node with
    | map _ es => (entrySettings? [] es).map .table
    | scalar _ true [] => some (.table [])
    | _ => none

end WindowTally.Yaml

namespace WindowTally

/-- The table of settings that a YAML text holds. -/
def Setting.ofYaml? (text : String) : Option Setting := do (← Yaml.read text).table?

end WindowTally
