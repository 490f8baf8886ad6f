import WindowTally.Source.Basic
import WindowTally.Text.Utf8

/-!
# Records from lines

A `LineSource` makes a record of every line of a byte stream, stamped with the time
at which it is read. A line ends at a line feed or at the end of the bytes; one
carriage return before the line feed is left out. A line that is not UTF-8 is a
fault of the source, and the next line is read after it.
-/
namespace WindowTally

/-- Bytes that are read line by line.
mirrors `source.LineIngress` -/
structure LineSource where
  name : String
  bytes : List UInt8
  /-- The time that lines are stamped with. -/
  now : Millis := 0
  deriving DecidableEq, Repr

namespace LineSource

/-- The bytes up to and including the first line feed, and the rest. -/
def cutLine : List UInt8 → List UInt8 × List UInt8
  | [] => ([], [])
  | b :: bs =>
    if b = 10 then ([b], bs)
    else
      let (line, rest) := cutLine bs
      (b :: line, rest)

/-- The line without its line break. -/
def stripBreak (line : List Char) : List Char :=
  match line.reverse with
  | '\n' :: '\r' :: rest => rest.reverse
  | '\n' :: rest => rest.reverse
  | _ => line

/-- mirrors `source.LineIngress.poll` -/
def poll (s : LineSource) : Polled × LineSource :=
  match s.bytes with
  | [] => (.ended, s)
  | b :: bs =>
    let (line, rest) := cutLine (b :: bs)
    let s := { s with bytes := rest }
    match Utf8.decode line with
    | .error fault => (.failed (.source (.notText fault)), s)
    | .ok cs => (.record { timestamp := s.now, payload := Utf8.encode (stripBreak cs) }, s)

instance : Source LineSource := ⟨poll⟩

end LineSource

end WindowTally
