/-!
# Trees of settings

What a settings file or a group of variables says, before it is read into typed
settings: single values, lists, and tables of named values. Trees are layered by
`Setting.onto`: a later table changes an earlier one entry by entry, and any
other later value takes the place of the earlier one.
-/
namespace WindowTally

/-- A node of a tree of settings. -/
inductive Setting where
  | null
  | flag (b : Bool)
  | integer (n : Int)
  /-- A number that is not an integer. -/
  | real
  | text (s : String)
  | list (items : List Setting)
  | table (entries : List (String × Setting))
  deriving Repr

namespace Setting

/-- The entries of a table, or none. -/
def entries : Setting → List (String × Setting)
  | .table es => es
  | _ => []

/-- The entry of a name. -/
def lookup (name : String) : List (String × Setting) → Option Setting
  | [] => none
  | (n, v) :: es => if n = name then some v else lookup name es

/-- Give a name a value, in place of the one it has. -/
def assign {α : Type} (name : String) (value : α) : List (String × α) → List (String × α)
  | [] => [(name, value)]
  | (n, v) :: es => if n = name then (n, value) :: es else (n, v) :: assign name value es

mutual

/-- A later setting over an earlier one. -/
def onto : Setting → Setting → Setting
  | .table later, .table earlier => .table (ontoAll later earlier)
  | later, _ => later

/-- The entries of a later table over those of an earlier one. -/
def ontoAll : List (String × Setting) → List (String × Setting) → List (String × Setting)
  | [], earlier => earlier
  | (name, value) :: later, earlier =>
    match lookup name earlier with
    | none => ontoAll later (assign name value earlier)
    | some old => ontoAll later (assign name (onto value old) earlier)

end

/-- A value at the end of a path of names. -/
def atPath (value : Setting) : List String → Setting
  | [] => value
  | name :: path => .table [(name, atPath value path)]

end Setting

end WindowTally
