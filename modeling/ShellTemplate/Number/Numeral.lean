/-!
# Decimal numerals

A numeral is a sign, a whole coefficient and a power of ten: `-1.50e3` is `-150 · 10^1`. Reading
keeps the coefficient's trailing zeros in the exponent, so `1.50` and `1.5` are different numerals
of one number.
-/

namespace ShellTemplate.Number

/-- The number `± coefficient · 10 ^ exponent`, with its sign kept for zero too. -/
structure Numeral where
  negative : Bool
  coefficient : Nat
  exponent : Int
deriving DecidableEq, Repr, Inhabited

/-- The value of a run of ASCII digits. -/
def ofDigits (ds : List Char) : Nat := Nat.ofDigitChars 10 ds 0

/-- The decimal digits of a natural number, without leading zeros. -/
def digits (n : Nat) : List Char := Nat.toDigits 10 n

theorem ofDigits_digits (n : Nat) : ofDigits (digits n) = n := Nat.ofDigitChars_ten_toDigits

/-- The decimal text of an integer. -/
def integer (n : Int) : List Char :=
  if n < 0 then '-' :: digits n.natAbs else digits n.natAbs

/-- An optional sign before a text: whether it is a minus, and the rest. -/
def sign : List Char → Bool × List Char
  | '-' :: rest => (true, rest)
  | '+' :: rest => (false, rest)
  | rest => (false, rest)

/-- The exponent that ends a numeral: nothing at all, or an `e` with an optional sign and digits. -/
def exponent? : List Char → Option Int
  | [] => some 0
  | e :: rest =>
    if e = 'e' ∨ e = 'E' then
      let (negative, ds) := sign rest
      if ds.isEmpty ∨ ¬ ds.all Char.isDigit then none
      else some (if negative then -(ofDigits ds : Int) else ofDigits ds)
    else none

/-- Digits with an optional point among or around them, and an optional exponent. -/
def magnitude? (cs : List Char) : Option (Nat × Int) :=
  let whole := cs.takeWhile Char.isDigit
  let afterWhole := cs.dropWhile Char.isDigit
  let (fraction, rest) := match afterWhole with
    | '.' :: tail => (tail.takeWhile Char.isDigit, tail.dropWhile Char.isDigit)
    | _ => ([], afterWhole)
  if whole.isEmpty ∧ fraction.isEmpty then none
  else (exponent? rest).map fun e => (ofDigits (whole ++ fraction), e - fraction.length)

/-- The numeral written by an ASCII text: a sign, digits with at most one point, an exponent. -/
def Numeral.ofChars? (cs : List Char) : Option Numeral :=
  let (negative, rest) := sign cs
  (magnitude? rest).map fun (c, e) => ⟨negative, c, e⟩

/-- How many digits the coefficient has; one for zero. -/
def Numeral.width (n : Numeral) : Nat := (digits n.coefficient).length

/-- The power of ten of the first digit of the coefficient. -/
def Numeral.leading (n : Numeral) : Int := n.exponent + n.width - 1

/-- Drops zeros from the end of a coefficient, at most `fuel` of them. -/
def dropZeros : Nat → Nat → Int → Nat × Int
  | 0, c, e => (c, e)
  | fuel + 1, c, e => if c ≠ 0 ∧ c % 10 = 0 then dropZeros fuel (c / 10) (e + 1) else (c, e)

/-- The one numeral that stands for all numerals of a number: the coefficient does not end in a
zero, and zero itself is `0 · 10^0` without a sign. -/
def Numeral.canonical (n : Numeral) : Numeral :=
  if n.coefficient = 0 then ⟨false, 0, 0⟩
  else
    let (c, e) := dropZeros n.width n.coefficient n.exponent
    ⟨n.negative, c, e⟩

end ShellTemplate.Number

namespace ShellTemplate

/-- The text of an integer. -/
def integerText (n : Int) : String := String.ofList (Number.integer n)

/-- The greatest number of digits that a whole number is read or written with. -/
def maxDigits : Nat := 4300

end ShellTemplate
