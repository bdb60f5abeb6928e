import ShellTemplate.Error
import ShellTemplate.Text.Digit
import ShellTemplate.Number.Numeral
import ShellTemplate.Yaml.Cursor

/-!
# Dates and times

A date is a year of four digits, a month and a day; a time of day and an offset may follow it.

* `Timestamp.ofChars?` — the date or time that a text is written as.
* `Timestamp.fault?` — what is wrong with it as a date or time of the calendar.
-/

namespace ShellTemplate.Yaml

open Number

/-- A time of day, with the offset of its zone in minutes. -/
structure Clock where
  hour : Nat
  minute : Nat
  second : Nat
  offset : Int

/-- A date, possibly with a time of day, and whether month and day have two digits each. -/
structure Timestamp where
  year : Nat
  month : Nat
  day : Nat
  padded : Bool
  clock : Option Clock

/-- A number of one or two digits that stands here, with the number of its digits. -/
def shortNumber? (cs : List Char) : Option (Nat × Nat × List Char) :=
  let ds := cs.takeWhile Char.isDigit
  if ds.length = 1 ∨ ds.length = 2 then some (ofDigits ds, ds.length, cs.drop ds.length) else none

/-- A number of two digits that stands here; more digits may follow it. -/
def twoDigits? : List Char → Option (Nat × List Char)
  | a :: b :: rest => if a.isDigit ∧ b.isDigit then some (ofDigits [a, b], rest) else none
  | _ => none

/-- What stands behind a character. -/
def after? (mark : Char) : List Char → Option (List Char)
  | c :: rest => if c = mark then some rest else none
  | [] => none

/-- The offset of a zone with a sign, in minutes. -/
def offset? (sign : Char) (cs : List Char) : Option Int := do
  let (hours, _, rest) ← shortNumber? cs
  let minutes ← match rest with
    | [] => some 0
    | ':' :: rest => do
      let (minutes, rest) ← twoDigits? rest
      if rest.isEmpty then some minutes else none
    | _ => none
  let total : Int := hours * 60 + minutes
  return if sign = '-' then -total else total

/-- The zone that ends a time: nothing, a `Z`, or a signed offset. -/
def zone? (cs : List Char) : Option Int :=
  match cs.dropWhile isInline with
  | [] => if cs.isEmpty then some 0 else none
  | ['Z'] => some 0
  | sign :: rest => if sign = '+' ∨ sign = '-' then offset? sign rest else none

/-- The text behind the fraction of a second, if there is one. -/
def skipFraction : List Char → List Char
  | '.' :: rest => rest.dropWhile Char.isDigit
  | rest => rest

/-- A time of day. -/
def clock? (cs : List Char) : Option Clock := do
  let (hour, _, rest) ← shortNumber? cs
  let (minute, rest) ← twoDigits? (← after? ':' rest)
  let (second, rest) ← twoDigits? (← after? ':' rest)
  let offset ← zone? (skipFraction rest)
  return ⟨hour, minute, second, offset⟩

/-- The text of a time of day behind a date: a letter or blanks stand between them. -/
def clockText? : List Char → Option (List Char)
  | c :: rest =>
    if c = 'T' ∨ c = 't' then some rest
    else if isInline c then some (rest.dropWhile isInline)
    else none
  | [] => none

namespace Timestamp

/-- The date or time that a text is written as. -/
def ofChars? (cs : List Char) : Option Timestamp := do
  let years := cs.takeWhile Char.isDigit
  if years.length ≠ 4 then none
  else
    let (month, monthWidth, rest) ← shortNumber? (← after? '-' (cs.drop 4))
    let (day, dayWidth, rest) ← shortNumber? (← after? '-' rest)
    let clock ← if rest.isEmpty then some none else ((clockText? rest).bind clock?).map some
    return ⟨ofDigits years, month, day, monthWidth = 2 && dayWidth = 2, clock⟩

/-- How many days a month has. -/
def daysIn (year month : Nat) : Nat :=
  if month = 2 then
    if year % 4 = 0 ∧ (year % 100 ≠ 0 ∨ year % 400 = 0) then 29 else 28
  else if month = 4 ∨ month = 6 ∨ month = 9 ∨ month = 11 then 30
  else 31

/-- An offset in days and seconds. -/
def offsetText (offset : Int) : String :=
  let seconds := offset * 60
  let days := seconds.fdiv 86400
  let rest := seconds.fmod 86400
  "datetime.timedelta(days=" ++ integerText days ++
    (if rest = 0 then "" else ", seconds=" ++ integerText rest) ++ ")"

/-- What is wrong with an offset: it is a day or more. -/
def offsetFault? (offset : Int) : Option String :=
  if offset.natAbs < 24 * 60 then none
  else some ("offset must be a timedelta strictly between -timedelta(hours=24) and " ++
    "timedelta(hours=24), not " ++ offsetText offset ++ ".")

/-- What is wrong with a date. -/
def dateFault? (t : Timestamp) : Option String :=
  if t.year = 0 then some "year 0 is out of range"
  else if t.month < 1 ∨ 12 < t.month then some "month must be in 1..12"
  else if t.day < 1 ∨ daysIn t.year t.month < t.day then some "day is out of range for month"
  else none

/-- What is wrong with a time of day. -/
def clockFault? (c : Clock) : Option String :=
  if 23 < c.hour then some "hour must be in 0..23"
  else if 59 < c.minute then some "minute must be in 0..59"
  else if 59 < c.second then some "second must be in 0..59"
  else none

/-- What is wrong with a date or time: its offset, its date or its time of day. -/
def fault? (t : Timestamp) : Option String :=
  match t.clock with
  | none => t.dateFault?
  | some c => (offsetFault? c.offset).or (t.dateFault?.or (clockFault? c))

end Timestamp

end ShellTemplate.Yaml
