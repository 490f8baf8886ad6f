import WindowTally.Json.Reader
import WindowTally.Settings.Tree
import WindowTally.Time.Millis

/-!
# Records with named fields

A `Schema` says how a record is read from JSON and from a tree of settings: its
fields with their names, and the record that reading starts from. A field is read
as a change of the record. Names that no field has are passed over, a field given
twice is a fault under any of its names, and a list gives the fields by position.
A record is either *open*, keeping what it starts from where a field is not given,
or *complete*, every field being required.
-/
namespace WindowTally

open Json (Reader Token ReadFault Mismatch unwanted)

/-- How a single value is read. -/
structure Kind (β : Type) where
  json : Reader β
  setting : Setting → Option β

namespace Kind

variable {β : Type}

/-- Integers from `least` to `greatest`. -/
def integer (wanted : String) (least greatest : Int) (ofInt : Int → β) : Kind β where
  json ts := (Reader.integer wanted least greatest ts).map fun r => (ofInt r.1, r.2)
  setting
    | .integer n => if least ≤ n ∧ n ≤ greatest then some (ofInt n) else none
    | _ => none

def millis : Kind Millis := integer "i64" Int64.minValue.toInt Int64.maxValue.toInt Int64.ofInt

def word64 : Kind UInt64 := integer "u64" 0 0xFFFFFFFFFFFFFFFF fun n => UInt64.ofNat n.toNat

def size : Kind UInt64 := integer "usize" 0 0xFFFFFFFFFFFFFFFF fun n => UInt64.ofNat n.toNat

def word32 : Kind UInt32 := integer "u32" 0 0xFFFFFFFF fun n => UInt32.ofNat n.toNat

def text : Kind String where
  json := Reader.text
  setting
    | .text s => some s
    | _ => none

def flag : Kind Bool where
  json := Reader.flag
  setting
    | .flag b => some b
    | _ => none

end Kind

/-- A field of a record of type `α`: its names, and how it changes the record it is read into. -/
structure Field (α : Type) where
  name : String
  aliases : List String
  json : Reader (α → α)
  setting : Setting → Option (α → α)

namespace Field

variable {α β : Type}

/-- A field with values of a kind. -/
def ofKind (name : String) (kind : Kind β) (set : β → α → α) (aliases : List String := []) :
    Field α where
  name := name
  aliases := aliases
  json ts := (kind.json ts).map fun r => (set r.1, r.2)
  setting s := (kind.setting s).map set

/-- Whether the field goes by a name. -/
def hasName (f : Field α) (name : String) : Bool := f.name == name || f.aliases.contains name

end Field

/-- How a record is read. -/
structure Schema (α : Type) where
  name : String
  fields : List (Field α)
  base : α
  /-- Every field has to be given. -/
  complete : Bool

namespace Schema

variable {α : Type}

/-- The field of a name. -/
def field? (s : Schema α) (name : String) : Option (Field α) :=
  s.fields.find? fun f => f.hasName name

/-- The first field that is required and not among the given ones. -/
def missing? (s : Schema α) (given : List String) : Option (Field α) :=
  if s.complete then s.fields.find? fun f => !given.contains f.name else none

/-- What a list of fields has to be. -/
def listText (s : Schema α) : String :=
  "struct " ++ s.name ++ " with " ++ toString s.fields.length ++
    (if s.fields.length = 1 then " element" else " elements")

/-- Read the member with the name `name` into `a`, the tokens beginning with the colon. -/
def readMember (s : Schema α) (name : String) (given : List String) (a : α) :
    List Token → Except ReadFault ((α × List String) × List Token) := fun ts =>
  match s.field? name with
  | some f =>
    if given.contains f.name then .error (.mismatch (.duplicate f.name))
    else
      match ts with
      | .colon :: ts => (f.json ts).map fun r => ((r.1 a, f.name :: given), r.2)
      | _ => .error .malformed
  | none =>
    match ts with
    | .colon :: ts => (Reader.skip ts).map fun r => ((a, given), r.2)
    | _ => .error .malformed

/-- Read the members of a map up to its closing bracket, at most `n` of them. -/
def readMembers (s : Schema α) : Nat → Bool → List String → α → Reader α
  | 0, _, _, _, _ => .error .malformed
  | _ + 1, _, given, a, .mapClose :: ts =>
    match s.missing? given with
    | some f => .error (.mismatch (.missing f.name))
    | none => .ok (a, ts)
  | n + 1, first, given, a, ts =>
    let members := match first, ts with
      | true, ts => ts
      | false, .comma :: ts => ts
      | false, _ => []
    match members with
    | .text (some name) :: ts =>
      match s.readMember name given a ts with
      | .ok ((a, given), ts) => readMembers s n false given a ts
      | .error fault => .error fault
    | _ => .error .malformed

/-- Read fields by position up to the closing bracket of a list; `done` have been read. -/
def readItems (s : Schema α) (done : Nat) : List (Field α) → α → Reader α
  | [], a, .listClose :: ts => .ok (a, ts)
  | [], _, _ => .error .malformed
  | _ :: _, a, .listClose :: ts =>
    if s.complete then .error (.mismatch (.wrongLength done s.listText)) else .ok (a, ts)
  | f :: fs, a, ts =>
    let item := match done, ts with
      | 0, ts => ts
      | _ + 1, .comma :: ts => ts
      | _ + 1, _ => []
    match f.json item with
    | .ok (change, ts) => readItems s (done + 1) fs (change a) ts
    | .error fault => .error fault

/-- Read a record from JSON. -/
def json (s : Schema α) : Reader α
  | .mapOpen :: ts => s.readMembers (ts.length + 1) true [] s.base ts
  | .listOpen :: ts => s.readItems 0 s.fields s.base ts
  | ts => .error (unwanted ("struct " ++ s.name) ts)

/-- Read the entries of a table. -/
def settingEntries (s : Schema α) : List String → α → List (String × Setting) → Option α
  | given, a, [] => if (s.missing? given).isNone then some a else none
  | given, a, (name, value) :: es =>
    match s.field? name with
    | none => settingEntries s given a es
    | some f =>
      if given.contains f.name then none
      else
        match f.setting value with
        | some change => settingEntries s (f.name :: given) (change a) es
        | none => none

/-- Read fields by position; what follows the last field is left out. -/
def settingItems (s : Schema α) : List (Field α) → α → List Setting → Option α
  | [], a, _ => some a
  | _ :: _, a, [] => if s.complete then none else some a
  | f :: fs, a, v :: vs =>
    match f.setting v with
    | some change => settingItems s fs (change a) vs
    | none => none

/-- Read a record from a tree of settings. -/
def setting (s : Schema α) : Setting → Option α
  | .table es => s.settingEntries [] s.base es
  | .list vs => s.settingItems s.fields s.base vs
  | _ => none

/-- Records as values of fields. -/
def kind (s : Schema α) : Kind α := ⟨s.json, s.setting⟩

end Schema

end WindowTally
