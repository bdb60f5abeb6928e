import ShellTemplate.Text.Printable

/-!
# Quoted texts in messages

How a text is shown inside a message: between apostrophes, or between double quotes when it holds an
apostrophe and no double quote; the quote and the backslash escaped by a backslash, the common
controls by a letter, and everything else that is not printable by its code point in hexadecimal.
-/

namespace ShellTemplate.Text

/-- The quote that surrounds a text. -/
def quoteFor (cs : List Char) : Char :=
  if cs.contains '\'' && !cs.contains '"' then '"' else '\''

/-- A number in lower-case hexadecimal, padded with zeros to a width. -/
def hex (width n : Nat) : List Char :=
  let ds := Nat.toDigits 16 n
  List.replicate (width - ds.length) '0' ++ ds

/-- The escapes that the quote asks for, and those of the backslash and of the common controls. -/
def commonEscape? (quote c : Char) : Option (List Char) :=
  if c = quote ∨ c = '\\' then some ['\\', c]
  else if c = '\n' then some ['\\', 'n']
  else if c = '\r' then some ['\\', 'r']
  else if c = '\t' then some ['\\', 't']
  else none

/-- One character of a quoted text. -/
def shownChar (quote c : Char) : List Char :=
  match commonEscape? quote c with
  | some escape => escape
  | none =>
    if isPrintable c then [c]
    else if c.toNat < 0x100 then '\\' :: 'x' :: hex 2 c.toNat
    else if c.toNat < 0x10000 then '\\' :: 'u' :: hex 4 c.toNat
    else '\\' :: 'U' :: hex 8 c.toNat

/-- A text between quotes. -/
def quotation (s : String) : String :=
  let cs := s.toList
  let quote := quoteFor cs
  String.ofList (quote :: (cs.flatMap (shownChar quote) ++ [quote]))

/-- One byte of a quoted byte string: printable ASCII as it is, the rest in hexadecimal. -/
def shownByte (quote : Char) (b : UInt8) : List Char :=
  let c := Char.ofNat b.toNat
  match commonEscape? quote c with
  | some escape => escape
  | none => if 0x20 ≤ b.toNat ∧ b.toNat < 0x7F then [c] else '\\' :: 'x' :: hex 2 b.toNat

/-- A byte string between quotes, marked by a `b`. -/
def byteQuotation (bs : List UInt8) : String :=
  let quote := quoteFor (bs.map fun b => Char.ofNat b.toNat)
  String.ofList ('b' :: quote :: (bs.flatMap (shownByte quote) ++ [quote]))

end ShellTemplate.Text
