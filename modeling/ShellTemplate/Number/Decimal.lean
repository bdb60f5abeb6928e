import ShellTemplate.Number.Numeral
import ShellTemplate.Text.Blank
import ShellTemplate.Text.Digit

/-!
# Decimal numbers

Decimal floating-point numbers with the special values, read from their texts and written back in
the scientific form: `12.50`, `1E+5`, `0.0000012`, `1.2E-7`, `-0`, `NaN12`.

* `Decimal.ofChars?` — the texts that denote a decimal number.
* `Decimal.toChars` — the one text that every decimal number is written as.
* `isNumeral` — the texts that a number atom may have.
-/

namespace ShellTemplate.Number

open ShellTemplate.Text

/-- A decimal number, an infinity, or no number (with a payload, possibly a signaling one). -/
inductive Decimal where
  | finite (numeral : Numeral)
  | infinite (negative : Bool)
  | nan (negative signaling : Bool) (payload : Nat)
deriving DecidableEq, Repr, Inhabited

namespace Decimal

/-- The largest power of ten that the first digit of a coefficient may have. -/
def maxLeading : Int := 999999999999999999

/-- The smallest power of ten that the last digit of a coefficient may have. -/
def minExponent : Int := -1999999999999999997

/-- Whether the exponents of a numeral are within the limits. -/
def InRange (n : Numeral) : Prop := n.leading ≤ maxLeading ∧ minExponent ≤ n.exponent

instance (n : Numeral) : Decidable (InRange n) := inferInstanceAs (Decidable (_ ∧ _))

/-- One character of a number's text in ASCII: digits of other scripts become ASCII digits, other
blanks become spaces, and nothing else outside ASCII is allowed. -/
def ascii? (c : Char) : Option Char :=
  if 0 < c.toNat ∧ c.toNat ≤ 127 then some c
  else if isBlank c then some ' '
  else (digitValue? c).map fun d => Char.ofNat (48 + d)

/-- Drops the underscores and turns the rest to ASCII. -/
def ascii (cs : List Char) : Option (List Char) := (cs.filter (· ≠ '_')).mapM ascii?

/-- An infinity or a NaN, whatever the case of its letters. -/
def special? (negative : Bool) (cs : List Char) : Option Decimal :=
  let lower := cs.map Char.toLower
  if lower = ['i', 'n', 'f'] ∨ lower = ['i', 'n', 'f', 'i', 'n', 'i', 't', 'y'] then
    some (.infinite negative)
  else match lower with
    | 'n' :: 'a' :: 'n' :: ds =>
      if ds.all Char.isDigit then some (.nan negative false (ofDigits ds)) else none
    | 's' :: 'n' :: 'a' :: 'n' :: ds =>
      if ds.all Char.isDigit then some (.nan negative true (ofDigits ds)) else none
    | _ => none

/-- The decimal number that a text denotes. Blanks around it and underscores in it do not count,
digits may be of any script, and the exponents must be within the limits. -/
def ofChars? (cs : List Char) : Option Decimal := do
  let cs ← ascii (trim cs)
  let (negative, rest) := sign cs
  match magnitude? rest with
  | some (c, e) =>
    let n : Numeral := ⟨negative, c, e⟩
    if InRange n then some (.finite n) else none
  | none => special? negative rest

/-- Digits with a point before the last `places` of them, zeros added in front where needed. -/
def withPoint (ds : List Char) (places : Nat) : List Char :=
  if places = 0 then ds
  else if places < ds.length then
    ds.take (ds.length - places) ++ '.' :: ds.drop (ds.length - places)
  else '0' :: '.' :: (List.replicate (places - ds.length) '0' ++ ds)

/-- A signed exponent; a plus is written. -/
def exponentText (e : Int) : List Char :=
  'E' :: (if e < 0 then '-' else '+') :: digits e.natAbs

/-- The scientific form: without exponent where the last digit is at most a unit and the first not
below the sixth decimal, otherwise one digit before the point and an exponent. -/
def numeralText (n : Numeral) : List Char :=
  let ds := digits n.coefficient
  let body :=
    if n.exponent ≤ 0 ∧ -6 ≤ n.leading then withPoint ds (-n.exponent).toNat
    else withPoint ds (ds.length - 1) ++ exponentText n.leading
  if n.negative then '-' :: body else body

/-- The text of a decimal number. -/
def toChars : Decimal → List Char
  | .finite n => numeralText n
  | .infinite negative => (if negative then ['-'] else []) ++ "Infinity".toList
  | .nan negative signaling payload =>
    (if negative then ['-'] else []) ++ (if signaling then ['s'] else []) ++ "NaN".toList ++
      (if payload = 0 then [] else digits payload)

/-- Whether the number is finite. -/
def isFinite : Decimal → Bool
  | .finite _ => true
  | _ => false

end Decimal

/-- The texts that a number atom may have: they denote a finite decimal number and have no blanks
around them. -/
def isNumeral (s : String) : Bool :=
  trim s.toList == s.toList && (Decimal.ofChars? s.toList).any Decimal.isFinite

end ShellTemplate.Number
