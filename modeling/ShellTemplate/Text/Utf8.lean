import ShellTemplate.Error

/-!
# UTF-8

The text that a list of bytes encodes. A character's first byte tells the least and the greatest
value of each of the bytes that have to follow it.

* `decode` — the text of some bytes, or the first fault in them.
-/

namespace ShellTemplate.Text

/-- The least and the greatest value that a byte may have. -/
abbrev ByteRange := Nat × Nat

/-- Any byte that continues a character. -/
def continuation : ByteRange := (0x80, 0xBF)

/-- What the first byte of a character says: the bits it gives, and the bytes that have to
follow. -/
def leadByte? (b : Nat) : Option (Nat × List ByteRange) :=
  if b < 0x80 then some (b, [])
  else if b < 0xC2 then none
  else if b < 0xE0 then some (b - 0xC0, [continuation])
  else if b = 0xE0 then some (0, [(0xA0, 0xBF), continuation])
  else if b = 0xED then some (0xD, [(0x80, 0x9F), continuation])
  else if b < 0xF0 then some (b - 0xE0, [continuation, continuation])
  else if b = 0xF0 then some (0, [(0x90, 0xBF), continuation, continuation])
  else if b < 0xF4 then some (b - 0xF0, [continuation, continuation, continuation])
  else if b = 0xF4 then some (4, [(0x80, 0x8F), continuation, continuation])
  else none

/-- The text of the bytes from a position on. Within a character, the bytes read of it are given in
reverse, with the bits read and the bytes still owed. The bytes of a character that is cut off by
the end are counted from the first of them. -/
def decodeFrom (position : Nat) (read : List UInt8) (bits : Nat) :
    List ByteRange → List UInt8 → Except Utf8Fault (List Char)
  | _, [] => if read.isEmpty then .ok [] else .error ⟨0, read.reverse, .truncated⟩
  | [], b :: rest =>
    match leadByte? b.toNat with
    | none => .error ⟨position, [b], .startByte⟩
    | some (bits, []) => (decodeFrom (position + 1) [] 0 [] rest).map (Char.ofNat bits :: ·)
    | some (bits, owed) => decodeFrom (position + 1) [b] bits owed rest
  | (least, greatest) :: owed, b :: rest =>
    if least ≤ b.toNat ∧ b.toNat ≤ greatest then
      let bits := bits * 0x40 + (b.toNat - 0x80)
      if owed.isEmpty then (decodeFrom (position + 1) [] 0 [] rest).map (Char.ofNat bits :: ·)
      else decodeFrom (position + 1) (b :: read) bits owed rest
    else .error ⟨position - read.length, read.reverse, .continuationByte⟩

/-- The text that some bytes encode. -/
def decode (bytes : List UInt8) : Except Utf8Fault (List Char) := decodeFrom 0 [] 0 [] bytes

end ShellTemplate.Text
