import ShellTemplate.Number.Decimal

/-!
# Binary floating-point numbers of 64 bits

A finite number is `± mantissa · 2 ^ exponent` with a mantissa below `2 ^ 53` and an exponent of at
least `-1074`; mantissas below `2 ^ 52` occur with the least exponent only. Everything is computed
in exact whole-number arithmetic.

* `Binary64.round` — the number nearest to a quotient, a tie going to the even mantissa.
* `Binary64.numeral` — every finite number is a decimal numeral exactly.
-/

namespace ShellTemplate.Number

/-- A binary floating-point number of 64 bits. All NaNs are one. -/
inductive Binary64 where
  | finite (negative : Bool) (mantissa : Nat) (exponent : Int)
  | infinite (negative : Bool)
  | nan
deriving DecidableEq, Repr, Inhabited

namespace Binary64

/-- The least exponent. -/
def minExponent : Int := -1074

/-- The greatest exponent. -/
def maxExponent : Int := 971

/-- Zero with a sign. -/
def zero (negative : Bool) : Binary64 := .finite negative 0 minExponent

/-- The quotient `num / den` divided by `2 ^ e`, as a quotient. -/
def scaled (num den : Nat) (e : Int) : Nat × Nat :=
  if e < 0 then (num * Nat.pow 2 e.natAbs, den) else (num, den * Nat.pow 2 e.natAbs)

/-- The whole number nearest to a quotient; a tie goes to the even one. -/
def nearest (num den : Nat) : Nat :=
  let q := num / den
  let r := num % den
  if 2 * r > den ∨ (2 * r = den ∧ q % 2 = 1) then q + 1 else q

/-- The number nearest to `± num / den`; a tie goes to the even mantissa. -/
def round (negative : Bool) (num den : Nat) : Binary64 :=
  if num = 0 ∨ den = 0 then zero negative
  else
    let guess : Int := max (num.log2 - den.log2 - 52 : Int) minExponent
    let (n, d) := scaled num den guess
    let e := if n / d < Nat.pow 2 52 ∧ minExponent < guess then guess - 1 else guess
    let (n, d) := scaled num den e
    let m := nearest n d
    let (m, e) := if m = Nat.pow 2 53 then (Nat.pow 2 52, e + 1) else (m, e)
    if maxExponent < e then .infinite negative else .finite negative m e

/-- The number nearest to a decimal numeral. Numerals far outside the range are told by their first
digit alone. -/
def ofNumeral (n : Numeral) : Binary64 :=
  if n.coefficient = 0 then zero n.negative
  else if 309 < n.leading then .infinite n.negative
  else if n.leading < -330 then zero n.negative
  else if n.exponent < 0 then round n.negative n.coefficient (Nat.pow 10 n.exponent.natAbs)
  else round n.negative (n.coefficient * Nat.pow 10 n.exponent.natAbs) 1

/-- The number nearest to a decimal number. -/
def ofDecimal : Decimal → Binary64
  | .finite n => ofNumeral n
  | .infinite negative => .infinite negative
  | .nan _ _ _ => .nan

/-- A finite binary number is a decimal one: a negative power of two is a power of five over a
power of ten. -/
def numeral (negative : Bool) (mantissa : Nat) (exponent : Int) : Numeral :=
  if exponent < 0 then ⟨negative, mantissa * Nat.pow 5 exponent.natAbs, exponent⟩
  else ⟨negative, mantissa * Nat.pow 2 exponent.natAbs, 0⟩

/-- Whether the number is neither an infinity nor a NaN. -/
def isFinite : Binary64 → Bool
  | .finite _ _ _ => true
  | _ => false

/-- The same number with the other sign. -/
def neg : Binary64 → Binary64
  | .finite negative m e => .finite (!negative) m e
  | .infinite negative => .infinite (!negative)
  | .nan => .nan

/-- The number nearest to a natural number; there is none beyond the range. -/
def ofNat? (n : Nat) : Option Binary64 := some (round false n 1) |>.filter isFinite

/-- The product of two numbers, rounded. -/
def mul : Binary64 → Binary64 → Binary64
  | .finite negative m e, .finite negative' m' e' =>
    let (n, d) := scaled (m * m') 1 (-(e + e'))
    round (negative != negative') n d
  | .infinite negative, .finite negative' m _ | .finite negative' m _, .infinite negative =>
    if m = 0 then .nan else .infinite (negative != negative')
  | .infinite negative, .infinite negative' => .infinite (negative != negative')
  | .nan, _ | _, .nan => .nan

/-- The sum of two numbers, rounded. A sum of zero is negative only if both numbers are. -/
def add : Binary64 → Binary64 → Binary64
  | .finite negative m e, .finite negative' m' e' =>
    let least := min e e'
    let units : Int := m * Nat.pow 2 (e - least).natAbs
    let units' : Int := m' * Nat.pow 2 (e' - least).natAbs
    let sum := (if negative then -units else units) + (if negative' then -units' else units')
    let (n, d) := scaled sum.natAbs 1 (-least)
    round (if sum = 0 then negative && negative' else sum < 0) n d
  | .infinite negative, .infinite negative' =>
    if negative = negative' then .infinite negative else .nan
  | .infinite negative, .finite .. | .finite .., .infinite negative => .infinite negative
  | .nan, _ | _, .nan => .nan

end Binary64

end ShellTemplate.Number
