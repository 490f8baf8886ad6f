/-!
# Reading UTF-8

`Utf8.decode` reads bytes as characters, accepting the shortest form of every
scalar value and nothing else. The first place where no character can be read is
reported with the number of bytes that were read before it, and with how many
bytes of the broken sequence could still have begun a character
(`Utf8.Fault`).
-/
namespace WindowTally.Utf8

/-- Bytes that are no UTF-8 text: everything before `validUpTo` is. The broken sequence
has `length` bytes, or is cut off by the end of the bytes. -/
structure Fault where
  validUpTo : Nat
  length : Option Nat
  deriving DecidableEq, Repr

def Fault.message (f : Fault) : String :=
  match f.length with
  | some n => s!"invalid utf-8 sequence of {n} bytes from index {f.validUpTo}"
  | none => s!"incomplete utf-8 byte sequence from index {f.validUpTo}"

/-- Whether a byte continues a character: `10xxxxxx`. -/
def isContinuation (b : UInt8) : Bool := 0x80 ≤ b && b ≤ 0xBF

/-- How many bytes a character has that begins with `b`, if one can. -/
def width (b : UInt8) : Option Nat :=
  if b < 0x80 then some 1
  else if b < 0xC2 then none
  else if b < 0xE0 then some 2
  else if b < 0xF0 then some 3
  else if b < 0xF5 then some 4
  else none

/-- Whether `b` can be the second byte after `a`: longer forms than needed, surrogates and
values past the last scalar value are excluded here. -/
def isSecond (a b : UInt8) : Bool :=
  if a = 0xE0 then 0xA0 ≤ b && b ≤ 0xBF
  else if a = 0xED then 0x80 ≤ b && b ≤ 0x9F
  else if a = 0xF0 then 0x90 ≤ b && b ≤ 0xBF
  else if a = 0xF4 then 0x80 ≤ b && b ≤ 0x8F
  else isContinuation b

/-- The low six bits of a continuation byte. -/
def payload (b : UInt8) : Nat := b.toNat % 64

def char2 (a b : UInt8) : Char := Char.ofNat (a.toNat % 32 * 64 + payload b)

def char3 (a b c : UInt8) : Char := Char.ofNat (a.toNat % 16 * 4096 + payload b * 64 + payload c)

def char4 (a b c d : UInt8) : Char :=
  Char.ofNat (a.toNat % 8 * 262144 + payload b * 4096 + payload c * 64 + payload d)

/-- Read characters, `pos` bytes having been read before. -/
def decodeFrom (pos : Nat) : List UInt8 → Except Fault (List Char)
  | [] => .ok []
  | a :: rest =>
    match width a with
    | some 1 => (decodeFrom (pos + 1) rest).map (Char.ofNat a.toNat :: ·)
    | some 2 =>
      match rest with
      | [] => .error ⟨pos, none⟩
      | b :: rest =>
        if isSecond a b then (decodeFrom (pos + 2) rest).map (char2 a b :: ·)
        else .error ⟨pos, some 1⟩
    | some 3 =>
      match rest with
      | [] => .error ⟨pos, none⟩
      | [b] => if isSecond a b then .error ⟨pos, none⟩ else .error ⟨pos, some 1⟩
      | b :: c :: rest =>
        if !isSecond a b then .error ⟨pos, some 1⟩
        else if !isContinuation c then .error ⟨pos, some 2⟩
        else (decodeFrom (pos + 3) rest).map (char3 a b c :: ·)
    | some 4 =>
      match rest with
      | [] => .error ⟨pos, none⟩
      | [b] => if isSecond a b then .error ⟨pos, none⟩ else .error ⟨pos, some 1⟩
      | [b, c] =>
        if !isSecond a b then .error ⟨pos, some 1⟩
        else if !isContinuation c then .error ⟨pos, some 2⟩
        else .error ⟨pos, none⟩
      | b :: c :: d :: rest =>
        if !isSecond a b then .error ⟨pos, some 1⟩
        else if !isContinuation c then .error ⟨pos, some 2⟩
        else if !isContinuation d then .error ⟨pos, some 3⟩
        else (decodeFrom (pos + 4) rest).map (char4 a b c d :: ·)
    | _ => .error ⟨pos, some 1⟩

/-- The characters that the bytes encode. -/
def decode (bytes : List UInt8) : Except Fault (List Char) := decodeFrom 0 bytes

/-- The bytes of a text. -/
def encode (cs : List Char) : List UInt8 := cs.flatMap String.utf8EncodeChar

end WindowTally.Utf8
