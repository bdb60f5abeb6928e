import ShellTemplate.Number.Binary64

/-!
# The shortest decimal text of a binary number

A binary number is written with the fewest decimal digits that read back to it, and of the decimals
of that length with the one nearest to it. The value lies in an interval of reals that all round to
it; for one, two, three … digits the two neighbours of the value on the decimal grid of that many
digits are tested against the interval, and the first grid with a hit wins.

* `Shortest.ofBinary` — coefficient and power of ten of the shortest decimal.
* `Binary64.toChars` — the text: with a point between the fourth decimal and the sixteenth digit,
  with an exponent outside.
-/

namespace ShellTemplate.Number

namespace Shortest

/-- The interval of reals that round to a positive binary number, in units of `unit / per`: the
ends, the value itself, and whether the ends belong to it. -/
structure Interval where
  low : Nat
  value : Nat
  high : Nat
  closed : Bool
  unit : Nat
  per : Nat

/-- The interval around `mantissa · 2 ^ exponent`, in quarters of its last place. The gap below a
power of two is half as wide, unless the exponent is the least one. -/
def Interval.around (mantissa : Nat) (exponent : Int) : Interval :=
  let (unit, per) := Binary64.scaled 1 4 (-exponent)
  let narrow := mantissa = Nat.pow 2 52 ∧ Binary64.minExponent < exponent
  { low := 4 * mantissa - (if narrow then 1 else 2), value := 4 * mantissa,
    high := 4 * mantissa + 2, closed := mantissa % 2 = 0, unit := unit, per := per }

/-- Whether `candidate · 10 ^ k` lies in the interval. -/
def Interval.holds (i : Interval) (candidate : Nat) (k : Int) : Bool :=
  let (c, u) := if k < 0 then (candidate * i.per, i.unit * Nat.pow 10 k.natAbs)
    else (candidate * i.per * Nat.pow 10 k.natAbs, i.unit)
  if i.closed then i.low * u ≤ c && c ≤ i.high * u else i.low * u < c && c < i.high * u

/-- The multiples of `10 ^ k` at and below the value: the quotient and, as a quotient, what is left
over. -/
def Interval.floor (i : Interval) (k : Int) : Nat × Nat × Nat :=
  let (n, d) := if k < 0 then (i.value * i.unit * Nat.pow 10 k.natAbs, i.per)
    else (i.value * i.unit, i.per * Nat.pow 10 k.natAbs)
  (n / d, n % d, d)

/-- The neighbour of the value on the grid of the multiples of `10 ^ k` that lies in the interval;
of two the nearer, and the even one if both are as near. -/
def Interval.hit? (i : Interval) (k : Int) : Option Nat :=
  let (below, rest, whole) := i.floor k
  match i.holds below k, i.holds (below + 1) k with
  | true, true =>
    if 2 * rest < whole ∨ (2 * rest = whole ∧ below % 2 = 0) then some below else some (below + 1)
  | true, false => some below
  | false, true => some (below + 1)
  | false, false => none

/-- The power of ten of the first digit of `num / den`, found by going down from `start`. -/
def firstPower (num den : Nat) : Nat → Int → Int
  | 0, start => start
  | fuel + 1, start =>
    let power := Nat.pow 10 start.natAbs
    let reached := if start < 0 then den ≤ num * power else den * power ≤ num
    if reached then start else firstPower num den fuel (start - 1)

/-- Tries grids of `count`, `count + 1`, … digits, at most `fuel` of them. -/
def search (i : Interval) (first : Int) : Nat → Nat → Nat × Int
  | 0, count => ((i.floor (first - count + 1)).1, first - count + 1)
  | fuel + 1, count =>
    let k := first - count + 1
    match i.hit? k with
    | some c => (c, k)
    | none => search i first fuel (count + 1)

/-- The shortest decimal that reads back as `mantissa · 2 ^ exponent`, without zeros at its end. -/
def ofBinary (mantissa : Nat) (exponent : Int) : Nat × Int :=
  if mantissa = 0 then (0, 0)
  else
    let i := Interval.around mantissa exponent
    let first := firstPower (i.value * i.unit) i.per 640 309
    let (c, k) := search i first 17 1
    dropZeros 18 c k

end Shortest

namespace Binary64

/-- Numbers whose first digit stands at this power of ten or above, and below `pointEnd`, are
written with a point and no exponent. -/
def pointStart : Int := -4

/-- The first power of ten that is written with an exponent. -/
def pointEnd : Int := 16

/-- An exponent with its sign and at least two digits. -/
def exponentText (e : Int) : List Char :=
  let ds := digits e.natAbs
  'e' :: (if e < 0 then '-' else '+') :: (if ds.length < 2 then '0' :: ds else ds)

/-- The text of `coefficient · 10 ^ power`; a whole number gets `.0`. -/
def decimalText (coefficient : Nat) (power : Int) : List Char :=
  let ds := digits coefficient
  let first := power + ds.length - 1
  if pointStart ≤ first ∧ first < pointEnd then
    if 0 ≤ power then ds ++ List.replicate power.natAbs '0' ++ ['.', '0']
    else Decimal.withPoint ds power.natAbs
  else
    (match ds with
      | [] => []
      | [d] => [d]
      | d :: rest => d :: '.' :: rest) ++ exponentText first

/-- The shortest text that reads back as the number. -/
def toChars : Binary64 → List Char
  | .finite negative m e =>
    let (c, k) := Shortest.ofBinary m e
    (if negative then ['-'] else []) ++ decimalText c k
  | .infinite negative => (if negative then ['-'] else []) ++ ['i', 'n', 'f']
  | .nan => ['n', 'a', 'n']

/-- An infinity or a NaN, whatever the case of its letters. -/
def special? (negative : Bool) (cs : List Char) : Option Binary64 :=
  let lower := cs.map Char.toLower
  if lower = "inf".toList ∨ lower = "infinity".toList then some (.infinite negative)
  else if lower = "nan".toList then some .nan
  else none

/-- The text of a number read as a binary number: a numeral, an infinity or a NaN. -/
def ofChars? (cs : List Char) : Option Binary64 := do
  let cs ← Decimal.ascii (Text.trim cs)
  let (negative, rest) := sign cs
  match magnitude? rest with
  | some (c, e) => some (ofNumeral ⟨negative, c, e⟩)
  | none => special? negative rest

end Binary64

end ShellTemplate.Number
