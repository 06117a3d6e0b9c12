/-!
# UTF-8 text

Streams, file contents and directory entries are raw bytes; texts are Unicode. `Utf8.encode` goes
from a text to its bytes, `Utf8.decode?` back, and `Utf8.decodeLossy` reads any bytes at all: each
maximal part that cannot be continued to a character becomes one replacement character.
-/

namespace BenchHarness

/-- A run of raw bytes: a stream, the content of a file, or a name in a directory. -/
abbrev Bytes := List UInt8

namespace Utf8

/-- The bytes of a text. -/
def encode (s : String) : Bytes := s.toList.flatMap String.utf8EncodeChar

/-! ## Reading bytes

A character that has been opened by its first byte waits for continuation bytes. The first of them
is bounded more tightly after some leading bytes, which rules out overlong forms, surrogates and
values past the last code point. -/

/-- A character whose first bytes have been read. The next byte must lie between `low` and `high`,
and `more` further continuation bytes follow it. -/
structure Pending where
  value : Nat
  low : UInt8
  high : UInt8
  more : Nat
  deriving DecidableEq, Repr

/-- What a byte means at the start of a character. -/
inductive Lead where
  | char (c : Char)
  | opens (p : Pending)
  | invalid
  deriving DecidableEq, Repr

/-- Reads the first byte of a character. -/
def lead (b : UInt8) : Lead :=
  if b < 0x80 then .char (Char.ofNat b.toNat)
  else if b < 0xc2 then .invalid
  else if b < 0xe0 then .opens ⟨b.toNat - 0xc0, 0x80, 0xbf, 0⟩
  else if b = 0xe0 then .opens ⟨0, 0xa0, 0xbf, 1⟩
  else if b = 0xed then .opens ⟨0x0d, 0x80, 0x9f, 1⟩
  else if b < 0xf0 then .opens ⟨b.toNat - 0xe0, 0x80, 0xbf, 1⟩
  else if b = 0xf0 then .opens ⟨0, 0x90, 0xbf, 2⟩
  else if b < 0xf4 then .opens ⟨b.toNat - 0xf0, 0x80, 0xbf, 2⟩
  else if b = 0xf4 then .opens ⟨4, 0x80, 0x8f, 2⟩
  else .invalid

/-- The value of a pending character after one more continuation byte. -/
def Pending.push (p : Pending) (b : UInt8) : Nat := p.value * 64 + (b.toNat - 0x80)

/-- Reads characters, `none` standing for each maximal part that is not one. The first argument is
the character being read, if any. -/
def decodeFrom : Option Pending → Bytes → List (Option Char)
  | none, [] => []
  | some _, [] => [none]
  | none, b :: rest =>
    match lead b with
    | .char c => some c :: decodeFrom none rest
    | .opens p => decodeFrom (some p) rest
    | .invalid => none :: decodeFrom none rest
  | some p, b :: rest =>
    if p.low ≤ b ∧ b ≤ p.high then
      match p.more with
      | 0 => some (Char.ofNat (p.push b)) :: decodeFrom none rest
      | more + 1 => decodeFrom (some ⟨p.push b, 0x80, 0xbf, more⟩) rest
    else
      match lead b with
      | .char c => none :: some c :: decodeFrom none rest
      | .opens q => none :: decodeFrom (some q) rest
      | .invalid => none :: none :: decodeFrom none rest

/-- The characters of a byte run, `none` for each part that is not one. -/
def decode (bytes : Bytes) : List (Option Char) := decodeFrom none bytes

/-- The text of a byte run, if all of it is well formed. -/
def decode? (bytes : Bytes) : Option String :=
  (decode bytes).mapM id |>.map String.ofList

/-- The replacement character. -/
def replacement : Char := '\ufffd'

/-- The text of a byte run, a replacement character standing for each malformed part. -/
def decodeLossy (bytes : Bytes) : String :=
  String.ofList ((decode bytes).map (·.getD replacement))

end Utf8

end BenchHarness
