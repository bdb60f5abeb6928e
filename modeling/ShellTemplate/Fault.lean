import ShellTemplate.Number.Numeral
import ShellTemplate.Text.Quotation

/-!
# Faults of configurations, scalars and bytes

What can be wrong with the text and the shape of a configuration, with a scalar in it, and with
bytes that should be a text. Each kind of fault has its own wording.
-/

namespace ShellTemplate

open Text

/-- What is wrong with a configuration: its text, its outermost shape, or a value in it. -/
inductive ConfigFault where
  | malformed (detail : String)
  | notMapping
  | invalid (detail : String)
deriving DecidableEq, Repr

/-- The wording of a fault of a configuration. -/
def ConfigFault.message : ConfigFault → String
  | malformed detail => detail
  | notMapping => "top level must be a mapping"
  | invalid detail => detail

/-- A scalar of a configuration that has the form of some type but no value of it. -/
inductive ScalarFault where
  | digits (base : Nat) (text : String)
  | noDigits
  | float (text : String)
  | truth (text : String)
  | date (text : String)
  | noDate
  | noText (typeName : String)
  | tooLarge
  | codePoint
deriving DecidableEq, Repr

/-- The wording of a scalar's fault. -/
def ScalarFault.message : ScalarFault → String
  | digits base text =>
    "invalid literal for int() with base " ++ integerText base ++ ": " ++ quotation text
  | noDigits => "string index out of range"
  | float text => "could not convert string to float: " ++ quotation text
  | truth text => quotation text
  | date text => text
  | noDate => "'NoneType' object has no attribute 'groupdict'"
  | noText typeName => "expected string or bytes-like object, got '" ++ typeName ++ "'"
  | tooLarge => "int too large to convert to float"
  | codePoint => "chr() arg not in range(0x110000)"

/-- Why bytes are no UTF-8 text. -/
inductive Utf8Reason where
  | startByte
  | continuationByte
  | truncated
deriving DecidableEq, Repr

/-- The wording of the reason. -/
def Utf8Reason.message : Utf8Reason → String
  | startByte => "invalid start byte"
  | continuationByte => "invalid continuation byte"
  | truncated => "unexpected end of data"

/-- Bytes that are no UTF-8 text: where they start, which they are, and why. -/
structure Utf8Fault where
  start : Nat
  bytes : List UInt8
  reason : Utf8Reason
deriving DecidableEq, Repr

/-- The wording of the fault; a single byte is shown. -/
def Utf8Fault.message (fault : Utf8Fault) : String :=
  let place := match fault.bytes with
    | [b] =>
      "byte 0x" ++ String.ofList (hex 2 b.toNat) ++ " in position " ++ integerText fault.start
    | bs => "bytes in position " ++ integerText fault.start ++ "-" ++
      integerText (fault.start + bs.length - 1)
  "'utf-8' codec can't decode " ++ place ++ ": " ++ fault.reason.message

end ShellTemplate
