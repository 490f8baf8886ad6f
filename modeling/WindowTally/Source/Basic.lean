import WindowTally.Fault
import WindowTally.Record

/-!
# Sources of records

A source is asked for its next record until it ends, or until it fails with a fault, which may be of
any kind. `ListSource` yields a list of records and may fail once after them; `ChannelSource` yields
what is sent to it through a bounded channel and ends once it is hung up and empty.
-/
namespace WindowTally

/-- The answer of a source that was asked for a record. -/
inductive Polled where
  | record (r : Record)
  | ended
  | failed (fault : Fault)
  /-- There is nothing yet. -/
  | waiting
  deriving DecidableEq, Repr

/-- Something that records are taken from.
mirrors `source.Ingress` -/
class Source (ι : Type) where
  poll : ι → Polled × ι

/-- A finite list of records.
mirrors `source.MemoryIngress` -/
structure ListSource where
  records : List Record
  /-- What the source fails with, once, after the last record. -/
  fault : Option SourceFault := none
  deriving DecidableEq, Repr

namespace ListSource

/-- mirrors `source.MemoryIngress.poll` -/
def poll (s : ListSource) : Polled × ListSource :=
  match s.records with
  | r :: rs => (.record r, { s with records := rs })
  | [] =>
    match s.fault with
    | some fault => (.failed (.source fault), { s with fault := none })
    | none => (.ended, s)

instance : Source ListSource := ⟨poll⟩

/-- Add a record at the end.
mirrors `source.MemoryIngress.push` -/
def push (s : ListSource) (r : Record) : ListSource := { s with records := s.records ++ [r] }

end ListSource

/-- The most permits that can be given out at once, `2 ^ 61 - 1`: a channel has one for each of its
places, and a dispatcher one for each of its slots. -/
def maxPermits : Nat := 2305843009213693951

/-- The receiving end of a bounded channel of records.
mirrors `source.ChannelIngress` -/
structure ChannelSource where
  capacity : Nat
  queued : List Record := []
  hungUp : Bool := false
  deriving DecidableEq, Repr

namespace ChannelSource

/-- A channel with room for `size` records, and for one at least, unless these are too many.
mirrors `source.ChannelIngress.channel` -/
def ofSize? (size : Nat) : Option ChannelSource :=
  if max size 1 ≤ maxPermits then some { capacity := max size 1 } else none

/-- mirrors `source.ChannelIngress.poll` -/
def poll (s : ChannelSource) : Polled × ChannelSource :=
  match s.queued with
  | r :: rs => (.record r, { s with queued := rs })
  | [] => (if s.hungUp then .ended else .waiting, s)

instance : Source ChannelSource := ⟨poll⟩

/-- Send a record, if there is room for it. -/
def send? (s : ChannelSource) (r : Record) : Option ChannelSource :=
  if s.queued.length < s.capacity then some { s with queued := s.queued ++ [r] } else none

/-- End the stream; what has been sent is still received. -/
def hangUp (s : ChannelSource) : ChannelSource := { s with hungUp := true }

end ChannelSource

end WindowTally
