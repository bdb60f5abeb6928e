/-!
# Base64

Bytes written by letters, digits, `+` and `/`, four of them for three bytes. Other characters do not
count, and nothing counts behind the equals signs that fill up the last group.

* `decodeBase64?` — the bytes of a text.
-/

namespace ShellTemplate.Yaml

/-- The six bits that a character stands for. -/
def sixBits? (c : Char) : Option Nat :=
  if c.isUpper then some (c.toNat - 'A'.toNat)
  else if c.isLower then some (c.toNat - 'a'.toNat + 26)
  else if c.isDigit then some (c.toNat - '0'.toNat + 52)
  else if c = '+' then some 62
  else if c = '/' then some 63
  else none

/-- The bytes of the rest of a text, given how many characters of a group were read, the bits left
over from them, and how many equals signs were met since. -/
def decodeGroup (place rest pads : Nat) : List Char → Option (List UInt8)
  | [] => if place = 0 then some [] else none
  | c :: cs =>
    if c = '=' then
      if 2 ≤ place ∧ 4 ≤ place + pads + 1 then some []
      else decodeGroup place rest (if 2 ≤ place then pads + 1 else pads) cs
    else
      match sixBits? c with
      | none => decodeGroup place rest pads cs
      | some bits =>
        let add (byte left next : Nat) := (decodeGroup next left 0 cs).map (UInt8.ofNat byte :: ·)
        match place with
        | 0 => decodeGroup 1 bits 0 cs
        | 1 => add (rest * 4 + bits / 16) (bits % 16) 2
        | 2 => add (rest * 16 + bits / 4) (bits % 4) 3
        | _ => add (rest * 64 + bits) 0 0

/-- The bytes that an ASCII text stands for. -/
def decodeBase64? (cs : List Char) : Option (List UInt8) :=
  if cs.all fun c => c.toNat < 0x80 then decodeGroup 0 0 0 cs else none

end ShellTemplate.Yaml
