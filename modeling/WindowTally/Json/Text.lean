import WindowTally.Record
import WindowTally.Settings.Processing
import WindowTally.Text.Escapes
import WindowTally.Watermark

/-!
# Writing JSON

The JSON documents that leave the program: objects on one line, without spaces,
their members in a fixed order. In a string the quote, the backslash and the
control characters are escaped, and nothing else is.
-/
namespace WindowTally.Json

/-- The characters that stand for one character of a string. -/
def escape (c : Char) : List Char :=
  if c = '"' then ['\\', '"']
  else if c = '\\' then ['\\', '\\']
  else if c = '\x08' then ['\\', 'b']
  else if c = '\x0c' then ['\\', 'f']
  else if c = '\n' then ['\\', 'n']
  else if c = '\r' then ['\\', 'r']
  else if c = '\t' then ['\\', 't']
  else if c.toNat < 32 then
    ['\\', 'u', '0', '0', Text.hexDigit (c.toNat / 16), Text.hexDigit (c.toNat % 16)]
  else [c]

/-- A string. -/
def quoted (cs : List Char) : List Char := '"' :: (cs.flatMap escape ++ ['"'])

/-- A number. -/
def integer (n : Int) : List Char := (toString n).toList

/-- A truth value. -/
def flag (b : Bool) : List Char := (toString b).toList

/-- The members of an object, each name followed by a written value. -/
def members : List (String × List Char) → List Char
  | [] => []
  | [(name, value)] => quoted name.toList ++ ':' :: value
  | (name, value) :: rest => quoted name.toList ++ ':' :: value ++ ',' :: members rest

/-- An object. -/
def object (ms : List (String × List Char)) : List Char := '{' :: (members ms ++ ['}'])

end WindowTally.Json

namespace WindowTally

def Window.toJson (w : Window) : List Char :=
  Json.object [("start", Json.integer w.start.toInt), ("end", Json.integer w.stop.toInt)]

def WordCount.toJson (c : WordCount) : List Char :=
  Json.object [("word", Json.quoted c.word.toList), ("count", Json.integer c.count.toNat),
    ("start", Json.integer c.window.start.toInt), ("end", Json.integer c.window.stop.toInt)]

def Watermark.toJson (w : Watermark) : List Char :=
  Json.object [("timestamp", Json.integer w.timestamp.toInt)]

def DeliverySettings.toJson (s : DeliverySettings) : List Char :=
  Json.object [("max_retries", Json.integer s.maxRetries.toNat),
    ("base_backoff_ms", Json.integer s.baseBackoff.toNat),
    ("max_backoff_ms", Json.integer s.maxBackoff.toNat),
    ("max_in_flight", Json.integer s.maxInFlight.toNat),
    ("buffer_size", Json.integer s.bufferSize.toNat)]

def ProcessingSettings.toJson (s : ProcessingSettings) : List Char :=
  Json.object [("window_length_ms", Json.integer s.windowLength.toInt),
    ("advance_by_ms", Json.integer s.advance.toInt), ("grace_ms", Json.integer s.grace.toInt),
    ("store_name", Json.quoted s.store.toList),
    ("commit_interval_ms", Json.integer s.commitInterval.toNat),
    ("max_out_of_order_ms", Json.integer s.allowance.toInt),
    ("flush_on_close", Json.flag s.flushOnClose), ("egress", s.delivery.toJson)]

end WindowTally
