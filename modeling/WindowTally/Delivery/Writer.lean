import WindowTally.Delivery.Sink

/-!
# Writers

A writer takes as many of the bytes it is given as it likes, or fails. A `WriterSink` writes
one JSON document per line to any writer, and flushes after each.
-/
namespace WindowTally

/-- Something that bytes are written to. -/
class Writer (ω : Type) where
  /-- Write some bytes: how many of them were taken, or why none were. -/
  write : ω → List UInt8 → Except String Nat × ω
  /-- Pass on what was taken. -/
  flush : ω → Except String Unit × ω
  /-- What was taken so far. -/
  held : ω → List UInt8

open Writer in
/-- A writer that keeps to its answers: it takes as many bytes as it says, from the front, and none
if it fails. -/
class LawfulWriter (ω : Type) [Writer ω] : Prop where
  length_le {w : ω} {bytes : List UInt8} {n : Nat} (h : (write w bytes).1 = .ok n) :
    n ≤ bytes.length
  held_of_ok {w : ω} {bytes : List UInt8} {n : Nat} (h : (write w bytes).1 = .ok n) :
    held (write w bytes).2 = held w ++ bytes.take n
  held_of_error {w : ω} {bytes : List UInt8} {reason : String}
    (h : (write w bytes).1 = .error reason) : held (write w bytes).2 = held w
  held_flush (w : ω) : held (flush w).2 = held w

namespace Writer

variable {ω : Type} [Writer ω]

/-- Write all of some bytes, in as many writes as it takes. It fails with the first write that
fails, or that takes nothing. -/
def writeAll (w : ω) (bytes : List UInt8) : Except String Unit × ω :=
  if bytes = [] then (.ok (), w)
  else
    match write w bytes with
    | (.ok 0, w) => (.error "write zero", w)
    | (.ok (n + 1), w) => writeAll w (bytes.drop (n + 1))
    | (.error reason, w) => (.error reason, w)
termination_by bytes.length
decreasing_by
  have hpos := List.length_pos_iff.2 ‹_›
  rw [List.length_drop]
  omega

end Writer

/-- A sink that writes lines to a writer.
mirrors `sink.WriterEgress` -/
structure WriterSink (ω : Type) where
  name : String
  writer : ω

namespace WriterSink

variable {ω : Type} [Writer ω]

/-- Write a line and flush it.
mirrors `sink.WriterEgress.deliver` -/
def deliver (s : WriterSink ω) (c : WordCount) : Except DeliveryFault Unit × WriterSink ω :=
  match Writer.writeAll s.writer (LineSink.line c) with
  | (.error reason, w) => (.error (c.rejected reason), { s with writer := w })
  | (.ok _, w) =>
    match Writer.flush w with
    | (.error reason, w) => (.error (c.rejected reason), { s with writer := w })
    | (.ok _, w) => (.ok (), { s with writer := w })

instance : Sink (WriterSink ω) := ⟨deliver⟩

end WriterSink

/-- A writer that keeps its bytes, and has room for so many if it is limited. -/
structure MemoryWriter where
  bytes : List UInt8 := []
  capacity : Option Nat := none
  deriving DecidableEq, Repr

namespace MemoryWriter

/-- How many of so many bytes it still has room for. -/
def takes (w : MemoryWriter) (n : Nat) : Nat :=
  match w.capacity with
  | none => n
  | some capacity => min n (capacity - w.bytes.length)

instance : Writer MemoryWriter where
  write w bytes :=
    (.ok (w.takes bytes.length), { w with bytes := w.bytes ++ bytes.take (w.takes bytes.length) })
  flush w := (.ok (), w)
  held := bytes

end MemoryWriter

end WindowTally
