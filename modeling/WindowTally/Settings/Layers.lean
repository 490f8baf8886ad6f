import WindowTally.Settings.Inline
import WindowTally.Settings.Schemas
import WindowTally.Yaml.Meaning

/-!
# Settings from a file and from variables

Settings start from their defaults. A file changes them, if there is one, and the
variables of the program change what the file says. Settings that break a rule are
refused; what is written in either place has to be readable even where the other
one decides.

A variable whose name begins with `WORDCOUNT_` names a setting: the rest of its
name, in lower case, is the path to it, two underscores standing between the names
on the path. `Environment.setting` layers the variables in the order in which they
were first set.
-/
namespace WindowTally

/-- Named values, in the order in which the names were first given one. -/
structure Environment where
  values : List (String × String) := []
  deriving DecidableEq, Repr

namespace Environment

/-- Give a variable a value. -/
def set (e : Environment) (name value : String) : Environment :=
  ⟨Setting.assign name value e.values⟩

def ofList (vs : List (String × String)) : Environment :=
  vs.foldl (fun e v => e.set v.1 v.2) {}

/-- What the names of the program's variables begin with, in letters of either case. -/
def mark : List Char := "wordcount_".toList

/-- The pieces of a name between its points and its pairs of underscores. -/
def pieces : List Char → List (List Char)
  | [] => [[]]
  | '_' :: '_' :: cs => [] :: pieces cs
  | '.' :: cs => [] :: pieces cs
  | c :: cs =>
    match pieces cs with
    | [] => [[c]]
    | p :: ps => (c :: p) :: ps

/-- The path that the name of a variable describes. A name with an empty piece describes none. -/
def path? (name : String) : Option (List String) :=
  let cs := (Text.trim name.toList).map Char.toLower
  if mark.isPrefixOf cs then
    let ps := pieces (Text.trim (cs.drop mark.length))
    if ps.any List.isEmpty then none else some (ps.map String.ofList)
  else none

/-- The tree of settings that the variables describe, later ones over earlier ones. -/
def setting (e : Environment) : Setting :=
  e.values.foldl
    (fun tree v =>
      match path? v.1 with
      | some path => (Setting.atPath (Setting.ofLine v.2) path).onto tree
      | none => tree)
    (.table [])

end Environment

namespace AppSettings

/-- The tree of what a file says, which is nothing if there is none. -/
def fileLayer : Option String → Option Setting
  | none => some (.table [])
  | some text => Setting.ofYaml? text

/-- The settings that the tree of a file and the variables describe, without regard to the
rules.
mirrors `AppConfig.figment` -/
def ofLayers? (file : Setting) (e : Environment) : Option AppSettings :=
  AppSettings.schema.setting (e.setting.onto file)

/-- Settings that break no rule. -/
def accepted (s : AppSettings) : Except AppFault AppSettings := s.check.map fun _ => s

/-- The settings to start with.
mirrors `AppConfig.load` -/
def load (file : Option String) (e : Environment) : Except AppFault AppSettings :=
  match (fileLayer file).bind fun tree => ofLayers? tree e with
  | none => .error .unreadable
  | some s => s.accepted

end AppSettings

end WindowTally
