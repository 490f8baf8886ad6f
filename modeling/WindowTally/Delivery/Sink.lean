import WindowTally.Fault
import WindowTally.Json.Text
import WindowTally.Text.Utf8

/-!
# Sinks

A sink takes word counts one at a time and may refuse any of them. A
`MemorySink` keeps what it takes and refuses as often as it has been told to; a
`LineSink` writes one JSON document per line, to a writer that may have room for
so many bytes only.
-/
namespace WindowTally

/-- Something that word counts are delivered to.
mirrors `sink.Egress` -/
class Sink (σ : Type) where
  /-- Offer one word count. -/
  deliver : σ → WordCount → Except DeliveryFault Unit × σ

/-- The refusal of a word count. -/
def WordCount.rejected (c : WordCount) (reason : String) : DeliveryFault :=
  .rejected c.word c.window.id reason

/-- How many more times deliveries of one word in one window fail. -/
structure FailureBudget where
  word : String
  windowId : String
  times : UInt32
  deriving DecidableEq, Repr

/-- The number of times that stands for "always".
mirrors `sink.MemoryEgress.fail_always` -/
def FailureBudget.always : UInt32 := UInt32.ofNat 0xFFFFFFFF

/-- A sink in memory.
mirrors `sink.MemoryEgress` -/
structure MemorySink where
  /-- What it took, in order. -/
  delivered : List WordCount := []
  /-- The failures still to come, one budget for each word and window. -/
  failures : List FailureBudget := []
  /-- How many word counts it was offered. -/
  attempts : UInt64 := 0
  deriving DecidableEq, Repr

namespace MemorySink

/-- Fail the next `times` deliveries of a word in a window, in place of any earlier order.
mirrors `sink.MemoryEgress.fail_times` -/
def failTimes (s : MemorySink) (word windowId : String) (times : UInt32) : MemorySink :=
  { s with
    failures :=
      ⟨word, windowId, times⟩ :: s.failures.filter fun b =>
        !(b.word == word && b.windowId == windowId) }

/-- Whether a budget is about this word count. -/
def concerns (c : WordCount) (b : FailureBudget) : Bool :=
  b.word == c.word && b.windowId == c.window.id

/-- A budget after one failure.
mirrors `sink.MemoryEgress.take_failure` -/
def spend (b : FailureBudget) : FailureBudget :=
  if b.times = FailureBudget.always then b else { b with times := b.times - 1 }

/-- Whether a delivery of `c` fails now. -/
def fails (s : MemorySink) (c : WordCount) : Bool :=
  s.failures.any fun b => concerns c b && b.times != 0

/-- mirrors `sink.MemoryEgress.deliver` -/
def deliver (s : MemorySink) (c : WordCount) : Except DeliveryFault Unit × MemorySink :=
  let s := { s with attempts := s.attempts + 1 }
  if s.fails c then
    (.error (c.rejected "injected failure"),
      { s with failures := s.failures.map fun b => if concerns c b then spend b else b })
  else (.ok (), { s with delivered := s.delivered ++ [c] })

instance : Sink MemorySink := ⟨deliver⟩

/-- The order of a listing by window, then by word, in which equals keep their order. -/
def listsNoLater (a b : WordCount) : Bool := !decide (b.ListsBefore a)

/-- What it took, by window and word.
mirrors `sink.MemoryEgress.delivered_sorted` -/
def sorted (s : MemorySink) : List WordCount := s.delivered.mergeSort listsNoLater

end MemorySink

/-- A sink that writes lines.
mirrors `sink.WriterEgress` -/
structure LineSink where
  name : String
  /-- The bytes written so far. -/
  written : List UInt8 := []
  /-- How many bytes the writer holds, if it is limited. -/
  capacity : Option Nat := none
  deriving DecidableEq, Repr

namespace LineSink

/-- What the lines are.
mirrors `sink.WriterEgress.content_type` -/
def contentType : String := "application/json"

/-- The line of a word count: the UTF-8 of its JSON text, ended by one line feed.
mirrors `sink.JsonSerializer.serialize` -/
def line (c : WordCount) : List UInt8 := Utf8.encode (c.toJson ++ ['\n'])

/-- Write a line. A writer without room for all of it takes as much as it can and fails.
mirrors `sink.WriterEgress.deliver` -/
def deliver (s : LineSink) (c : WordCount) : Except DeliveryFault Unit × LineSink :=
  match s.capacity with
  | none => (.ok (), { s with written := s.written ++ line c })
  | some capacity =>
    let room := capacity - s.written.length
    if (line c).length ≤ room then (.ok (), { s with written := s.written ++ line c })
    else (.error (c.rejected "write zero"), { s with written := s.written ++ (line c).take room })

instance : Sink LineSink := ⟨deliver⟩

/-- The bytes cut at line feeds; after the last line feed there is a line only if bytes follow. -/
def cutLines : List UInt8 → List (List UInt8)
  | [] => []
  | b :: bs =>
    if b = 10 then [] :: cutLines bs
    else
      match cutLines bs with
      | [] => [[b]]
      | l :: ls => (b :: l) :: ls

end LineSink

end WindowTally
