import WindowTally.Json.Fault
import WindowTally.Json.Token

/-!
# Reading values from tokens

A reader takes the tokens of one value and returns the value with the tokens that
follow, or says why there is none. It looks at as few tokens as it needs: a value
of the wrong type is found before anything that is wrong further on.

* `integer`, `text` and `flag` read single values,
* `skip` passes over a value of any kind.
-/
namespace WindowTally.Json

/-- Reads a value from the front of the tokens. -/
abbrev Reader (α : Type) := List Token → Except ReadFault (α × List Token)

/-- The fault of tokens whose first value is not `wanted`. -/
def unwanted (wanted : String) : List Token → ReadFault
  | .null :: _ => .mismatch (.wrongType .null wanted)
  | .flag b :: _ => .mismatch (.wrongType (.flag b) wanted)
  | .number (.integer n) :: _ => .mismatch (.wrongType (.integer n) wanted)
  | .number (.real text) :: _ => .mismatch (.wrongType (.real text) wanted)
  | .text (some s) :: _ => .mismatch (.wrongType (.text s) wanted)
  | .listOpen :: _ => .mismatch (.wrongType .list wanted)
  | .mapOpen :: _ => .mismatch (.wrongType .map wanted)
  | _ => .malformed

namespace Reader

/-- Reads an integer from `least` to `greatest`. -/
def integer (wanted : String) (least greatest : Int) : Reader Int
  | .number (.integer n) :: ts =>
    if least ≤ n ∧ n ≤ greatest then .ok (n, ts)
    else .error (.mismatch (.wrongValue (.integer n) wanted))
  | ts => .error (unwanted wanted ts)

/-- Reads a string. -/
def text : Reader String
  | .text (some s) :: ts => .ok (s, ts)
  | ts => .error (unwanted "a string" ts)

/-- Reads a truth value. -/
def flag : Reader Bool
  | .flag b :: ts => .ok (b, ts)
  | ts => .error (unwanted "a boolean" ts)

/-- What may come next while a value is passed over. -/
inductive Expecting where
  | value
  | valueOrClose
  | key
  | keyOrClose
  | colon
  /-- A value has ended. -/
  | separator
  deriving DecidableEq, Repr

/-- Pass over tokens inside the open brackets `open_`, innermost first; `true` is a map. -/
def skipFrom : List Bool → Expecting → List Token → Except ReadFault (List Token)
  | [], .separator, ts => .ok ts
  | _, _, [] => .error .malformed
  | frames, e, t :: ts =>
    match e, t, frames with
    | .separator, .comma, true :: _ => skipFrom frames .key ts
    | .separator, .comma, false :: _ => skipFrom frames .value ts
    | .separator, .mapClose, true :: frames => skipFrom frames .separator ts
    | .separator, .listClose, false :: frames => skipFrom frames .separator ts
    | .key, .text _, _ => skipFrom frames .colon ts
    | .keyOrClose, .text _, _ => skipFrom frames .colon ts
    | .keyOrClose, .mapClose, true :: frames => skipFrom frames .separator ts
    | .colon, .colon, _ => skipFrom frames .value ts
    | .valueOrClose, .listClose, false :: frames => skipFrom frames .separator ts
    | .value, .listOpen, _ => skipFrom (false :: frames) .valueOrClose ts
    | .valueOrClose, .listOpen, _ => skipFrom (false :: frames) .valueOrClose ts
    | .value, .mapOpen, _ => skipFrom (true :: frames) .keyOrClose ts
    | .valueOrClose, .mapOpen, _ => skipFrom (true :: frames) .keyOrClose ts
    | .value, .null, _ => skipFrom frames .separator ts
    | .valueOrClose, .null, _ => skipFrom frames .separator ts
    | .value, .flag _, _ => skipFrom frames .separator ts
    | .valueOrClose, .flag _, _ => skipFrom frames .separator ts
    | .value, .number _, _ => skipFrom frames .separator ts
    | .valueOrClose, .number _, _ => skipFrom frames .separator ts
    | .value, .text _, _ => skipFrom frames .separator ts
    | .valueOrClose, .text _, _ => skipFrom frames .separator ts
    | _, _, _ => .error .malformed

/-- Passes over one value of any kind. -/
def skip : Reader Unit := fun ts => (skipFrom [] .value ts).map fun rest => ((), rest)

/-- Read a whole text: one value, and nothing after it. -/
def readText {α : Type} (r : Reader α) (cs : List Char) : Except ReadFault α :=
  match r (tokens cs) with
  | .ok (a, []) => .ok a
  | .ok (_, _ :: _) => .error .malformed
  | .error fault => .error fault

end Reader

end WindowTally.Json
