import WindowTally.Text.Escapes

/-!
# Why a JSON document is not read

Either the text is no JSON document, or a value in it is not the one that is
wanted there.
-/
namespace WindowTally.Json

/-- What was found in place of a wanted value. -/
inductive Found where
  | null
  | flag (b : Bool)
  | integer (n : Int)
  /-- A number with a point or an exponent, or too large for 64 bits, with its text. -/
  | real (text : String)
  | text (s : String)
  | list
  | map
  deriving DecidableEq, Repr

def Found.message : Found → String
  | null => "null"
  | flag b => if b then "boolean `true`" else "boolean `false`"
  | integer n => "integer `" ++ toString n ++ "`"
  | real digits => "floating point `" ++ digits ++ "`"
  | text s => "string " ++ Text.quoted s
  | list => "sequence"
  | map => "map"

/-- What is wrong with a value. -/
inductive Mismatch where
  | wrongType (found : Found) (wanted : String)
  | wrongValue (found : Found) (wanted : String)
  | wrongLength (length : Nat) (wanted : String)
  | missing (field : String)
  | duplicate (field : String)
  deriving DecidableEq, Repr

def Mismatch.message : Mismatch → String
  | wrongType found wanted => "invalid type: " ++ found.message ++ ", expected " ++ wanted
  | wrongValue found wanted => "invalid value: " ++ found.message ++ ", expected " ++ wanted
  | wrongLength length wanted => "invalid length " ++ toString length ++ ", expected " ++ wanted
  | missing field => "missing field `" ++ field ++ "`"
  | duplicate field => "duplicate field `" ++ field ++ "`"

/-- Why reading stopped. -/
inductive ReadFault where
  | malformed
  | mismatch (m : Mismatch)
  deriving DecidableEq, Repr

end WindowTally.Json
