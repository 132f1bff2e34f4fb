import LRZero.Text.Quoted

/-!
# Texts in UTF-8

`decode` reads a text from bytes.  Where the bytes are no UTF-8 it says which
of them cannot be read and why: the bytes of the first sequence that no
character starts with, up to the byte that rules it out.
-/

namespace LRZero.Text

/-- Why bytes are no UTF-8. -/
inductive DecodeCause
  /-- A byte that no character starts with. -/
  | startByte
  /-- A byte inside a character that cannot stand there. -/
  | continuationByte
  /-- The bytes end inside a character. -/
  | endOfData
deriving DecidableEq

/-- The cause in words. -/
def DecodeCause.message : DecodeCause → String
  | .startByte => "invalid start byte"
  | .continuationByte => "invalid continuation byte"
  | .endOfData => "unexpected end of data"

/-- The first bytes that cannot be read: their first and last positions, the
byte at the first of them, and the cause. -/
structure DecodeError where
  first : Nat
  last : Nat
  byte : UInt8
  cause : DecodeCause
deriving DecidableEq

/-- The error in words; a single byte is shown, of several only the positions. -/
def DecodeError.message (e : DecodeError) : String :=
  let subject :=
    if e.first = e.last then
      s!"byte 0x{String.ofList (hexDigits 2 e.byte.toNat)} in position {e.first}"
    else s!"bytes in position {e.first}-{e.last}"
  s!"'utf-8' codec can't decode {subject}: {e.cause.message}"

/-- A character whose first bytes have been read: where it starts, with
which byte, how many bytes it still lacks, and between which bounds the next
one lies. -/
structure Unfinished where
  first : Nat
  byte : UInt8
  lacking : Nat
  low : UInt8
  high : UInt8

/-- The character that a byte starts: the number of bytes that follow it and
the bounds of the first of those. -/
def startByte? (b : UInt8) : Option (Nat × UInt8 × UInt8) :=
  if b < 0x80 then some (0, 0x80, 0xBF)
  else if b < 0xC2 then none
  else if b < 0xE0 then some (1, 0x80, 0xBF)
  else if b = 0xE0 then some (2, 0xA0, 0xBF)
  else if b = 0xED then some (2, 0x80, 0x9F)
  else if b < 0xF0 then some (2, 0x80, 0xBF)
  else if b = 0xF0 then some (3, 0x90, 0xBF)
  else if b < 0xF4 then some (3, 0x80, 0xBF)
  else if b = 0xF4 then some (3, 0x80, 0x8F)
  else none

/-- The character with its next byte, or nothing when that was the last one. -/
def Unfinished.next (u : Unfinished) : Option Unfinished :=
  if u.lacking ≤ 1 then none
  else some ⟨u.first, u.byte, u.lacking - 1, 0x80, 0xBF⟩

/-- The first error in the bytes from position `pos` on, inside the character
`unfinished` or between characters.  Bytes without an error are reported as
ending too early; `decode` asks only for bytes that are no UTF-8. -/
def decodeError (pos : Nat) (unfinished : Option Unfinished) : List UInt8 → DecodeError
  | [] =>
    match unfinished with
    | none => ⟨pos, pos, 0, .endOfData⟩
    | some u => ⟨u.first, pos - 1, u.byte, .endOfData⟩
  | b :: rest =>
    match unfinished with
    | none =>
      match startByte? b with
      | none => ⟨pos, pos, b, .startByte⟩
      | some (0, _, _) => decodeError (pos + 1) none rest
      | some (lacking, low, high) => decodeError (pos + 1) (some ⟨pos, b, lacking, low, high⟩) rest
    | some u =>
      if u.low ≤ b ∧ b ≤ u.high then decodeError (pos + 1) u.next rest
      else ⟨u.first, pos - 1, u.byte, .continuationByte⟩

/-- The text that the bytes hold. -/
def decode (bytes : ByteArray) : Except DecodeError String :=
  match String.fromUTF8? bytes with
  | some s => .ok s
  | none => .error (decodeError 0 none bytes.toList)

end LRZero.Text
