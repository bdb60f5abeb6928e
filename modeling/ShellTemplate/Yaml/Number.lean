import ShellTemplate.Error
import ShellTemplate.Json.Text
import ShellTemplate.Number.Shortest

/-!
# Numbers of a YAML text

Whole numbers are decimal, octal with a leading zero, binary or hexadecimal with a letter behind the
zero, or sexagesimal with colons between the places. Underscores between digits do not count.

* `isWhole`, `isFloat` — the plain texts that are taken for numbers.
* `wholeValue`, `floatValue` — the numbers that texts denote, or what is wrong with them.
-/

namespace ShellTemplate.Yaml

open Number

/-! ## Which plain texts are numbers -/

/-- A digit or an underscore. -/
def isDigitOrLow (c : Char) : Bool := c.isDigit || c = '_'

/-- What stands behind the digits of a number, which start with a digit. -/
def afterDigits? : List Char → Option (List Char)
  | c :: rest => if c.isDigit then some (rest.dropWhile isDigitOrLow) else none
  | [] => none

/-- Whether a text is the rest of a sexagesimal number: places of one or two digits up to 59, each
behind a colon, and the end or, for a fraction, a point with digits. -/
def isPlaces (fraction : Bool) : List Char → Bool
  | ':' :: a :: rest =>
    if !a.isDigit then false
    else
      match rest with
      | [] => !fraction
      | b :: rest' =>
        if b.isDigit then
          a ≤ '5' && (match rest' with
            | [] => !fraction
            | ':' :: _ => isPlaces fraction rest'
            | '.' :: tail => fraction && tail.all isDigitOrLow
            | _ => false)
        else if b = ':' then isPlaces fraction (b :: rest')
        else b = '.' && fraction && rest'.all isDigitOrLow
  | _ => false

/-- Whether a text is empty or an exponent with a sign and digits. -/
def isExponent : List Char → Bool
  | [] => true
  | e :: sign :: ds =>
    (e = 'e' || e = 'E') && (sign = '+' || sign = '-') && !ds.isEmpty && ds.all Char.isDigit
  | _ => false

/-- Whether an unsigned plain text is a whole number. -/
def isUnsignedWhole : List Char → Bool
  | ['0'] => true
  | '0' :: 'b' :: ds => !ds.isEmpty && ds.all fun c => c = '0' || c = '1' || c = '_'
  | '0' :: 'x' :: ds => !ds.isEmpty && ds.all fun c => (Json.hexValue? c).isSome || c = '_'
  | '0' :: ds => ds.all fun c => ('0' ≤ c && c ≤ '7') || c = '_'
  | c :: rest =>
    c.isDigit &&
      let tail := rest.dropWhile isDigitOrLow
      tail.isEmpty || isPlaces false tail
  | [] => false

/-- Whether a plain text is a whole number. -/
def isWhole (cs : List Char) : Bool := isUnsignedWhole (sign cs).2

/-- Whether an unsigned plain text is a number with a point behind its first digit. -/
def isUnsignedFloat (cs : List Char) : Bool :=
  match afterDigits? cs with
  | some ('.' :: tail) => isExponent (tail.dropWhile isDigitOrLow)
  | some tail => isPlaces true tail
  | none => false

/-- Whether a plain text is a number with a point. One that starts with the point has no sign. -/
def isFloat (cs : List Char) : Bool :=
  isUnsignedFloat (sign cs).2 ||
  (match cs with
    | '.' :: tail => (afterDigits? tail).any isExponent
    | _ => false) ||
  [".inf", ".Inf", ".INF"].contains (String.ofList (sign cs).2) ||
  [".nan", ".NaN", ".NAN"].contains (String.ofList cs)

/-! ## Which numbers they are -/

/-- The value of a digit in some base. -/
def digitIn? (base : Nat) (c : Char) : Option Nat :=
  let value := (Text.digitValue? c).or
    (if c.isAlpha then some (c.toLower.toNat - 'a'.toNat + 10) else none)
  value.filter (· < base)

/-- The letter that may stand behind a leading zero in some base. -/
def baseLetter? (base : Nat) : Option Char :=
  if base = 2 then some 'b' else if base = 8 then some 'o' else if base = 16 then some 'x' else none

/-- Digits without the sign of their base before them. -/
def withoutBase (base : Nat) : List Char → List Char
  | '0' :: c :: rest => if some c.toLower = baseLetter? base then rest else '0' :: c :: rest
  | cs => cs

/-- The whole number that a text denotes in some base. Blanks may stand around it. -/
def wholeIn (base : Nat) (text : List Char) : Except Error Int :=
  let (negative, rest) := sign (Text.trim text)
  let rest := withoutBase base rest
  match rest.mapM (digitIn? base) with
  | none | some [] => .error (.scalar (.digits base (String.ofList text)))
  | some ds =>
    if base = 10 ∧ maxDigits < ds.length then .error (.tooManyDigits (some ds.length))
    else
      let n : Nat := ds.foldl (fun n d => n * base + d) 0
      .ok (if negative then -n else n)

/-- The texts between the colons of a text. -/
def places (cs : List Char) : List (List Char) := cs.splitOn ':'

/-- The whole number of a text. -/
def wholeValue (text : List Char) : Except Error Int := do
  let text := text.filter (· ≠ '_')
  if text.isEmpty then throw (.scalar .noDigits)
  let (negative, text) := sign text
  let n ← match text with
    | [] => throw (.scalar .noDigits)
    | ['0'] => pure 0
    | '0' :: 'b' :: ds => wholeIn 2 ds
    | '0' :: 'x' :: ds => wholeIn 16 ds
    | '0' :: ds => wholeIn 8 ('0' :: ds)
    | text =>
      if text.contains ':' then do
        let places ← (places text).mapM (wholeIn 10)
        pure (places.foldl (fun n place => n * 60 + place) 0)
      else wholeIn 10 text
  return if negative then -n else n

/-- The floating-point number of a text without colons. -/
def floatIn (text : List Char) : Except Error Binary64 :=
  match Binary64.ofChars? text with
  | some x => .ok x
  | none => .error (.scalar (.float (String.ofList text)))

/-- The sum of places of a sexagesimal number, from the last place on. The unit of each place must
be within the range. -/
def placesSum : Nat → Binary64 → List Binary64 → Except Error Binary64
  | _, sum, [] => .ok sum
  | unit, sum, place :: rest =>
    match Binary64.ofNat? unit with
    | some u => placesSum (unit * 60) (sum.add (place.mul u)) rest
    | none => .error (.scalar .tooLarge)

/-- The floating-point number of a text. -/
def floatValue (text : List Char) : Except Error Binary64 := do
  let text := (text.filter (· ≠ '_')).map Char.toLower
  if text.isEmpty then throw (.scalar .noDigits)
  let (negative, text) := sign text
  let x ← if text = ".inf".toList then pure (.infinite false)
    else if text = ".nan".toList then pure .nan
    else if text.contains ':' then do
      let places ← (places text).mapM floatIn
      placesSum 1 (.zero false) places.reverse
    else floatIn text
  return if negative then x.neg else x

end ShellTemplate.Yaml
