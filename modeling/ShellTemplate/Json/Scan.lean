import ShellTemplate.Json.Text
import ShellTemplate.Number.Numeral

/-!
# Scanning JSON

The pieces of a JSON text: white space, the opening of the next element of an array or of the next
member of an object, numbers, and whole values that are passed over. Every scanner takes the text
that is still to be read and returns the rest; `none` says that the text is malformed.
-/

namespace ShellTemplate.Json

/-- White space between tokens. -/
def isSpace (c : Char) : Bool := c = ' ' || c = '\t' || c = '\n' || c = '\r'

/-- The text from the next token on. -/
def skipSpace (cs : List Char) : List Char := cs.dropWhile isSpace

/-- Where an array goes on: at its end, or with an element. -/
inductive Element where
  | close (rest : List Char)
  | element (rest : List Char)

/-- Looks for the next element of an array, behind the opening bracket or behind an element. -/
def element? (first : Bool) (cs : List Char) : Option Element :=
  match skipSpace cs with
  | [] => none
  | c :: rest =>
    if c = ']' then some (.close rest)
    else if first then some (.element (c :: rest))
    else if c = ',' then
      match skipSpace rest with
      | [] => none
      | d :: rest' => if d = ']' then none else some (.element (d :: rest'))
    else none

/-- Where an object goes on: at its end, or with a member of some name. -/
inductive Member where
  | close (rest : List Char)
  | member (name : List Char) (rest : List Char)

/-- The name of a member and what follows its colon. -/
def memberName? : List Char → Option Member
  | '"' :: rest => do
    let (name, rest) ← readBody [] rest
    match skipSpace rest with
    | ':' :: rest => some (.member name rest)
    | _ => none
  | _ => none

/-- Looks for the next member of an object, behind the opening brace or behind a member. -/
def member? (first : Bool) (cs : List Char) : Option Member :=
  match skipSpace cs with
  | [] => none
  | c :: rest =>
    if c = '}' then some (.close rest)
    else if first then memberName? (c :: rest)
    else if c = ',' then memberName? (skipSpace rest)
    else none

/-- A number: the text of its whole part, and whether it is no more than that. -/
structure NumberToken where
  text : List Char
  whole : Bool

/-- A fraction, if there is one: whether it is there, and the rest. -/
def fraction? : List Char → Option (Bool × List Char)
  | '.' :: rest =>
    if (rest.takeWhile Char.isDigit).isEmpty then none
    else some (true, rest.dropWhile Char.isDigit)
  | rest => some (false, rest)

/-- An exponent, if there is one: whether it is there, and the rest. -/
def exponent? : List Char → Option (Bool × List Char)
  | [] => some (false, [])
  | c :: rest =>
    if c = 'e' ∨ c = 'E' then
      let rest := (Number.sign rest).2
      if (rest.takeWhile Char.isDigit).isEmpty then none
      else some (true, rest.dropWhile Char.isDigit)
    else some (false, c :: rest)

/-- A number and the rest. Only zero itself may start with a zero. -/
def number? (cs : List Char) : Option (NumberToken × List Char) := do
  let (minus, unsigned) := match cs with
    | '-' :: rest => (['-'], rest)
    | rest => ([], rest)
  let digits := unsigned.takeWhile Char.isDigit
  if digits.isEmpty ∨ (digits.head? = some '0' ∧ 1 < digits.length) then none
  else
    let (fractional, rest) ← fraction? (unsigned.dropWhile Char.isDigit)
    let (exponential, rest) ← exponent? rest
    return (⟨minus ++ digits, !fractional && !exponential⟩, rest)

/-- The whole number of a text of digits with an optional minus. -/
def wholeNumber : List Char → Int
  | '-' :: ds => -(Number.ofDigits ds : Int)
  | ds => Number.ofDigits ds

/-- The text behind a word that has to stand here. -/
def keyword? (keyword cs : List Char) : Option (List Char) :=
  if keyword.isPrefixOf cs then some (cs.drop keyword.length) else none

mutual

/-- Passes over a value. -/
def skipValue (fuel : Nat) (cs : List Char) : Option (List Char) :=
  match fuel with
  | 0 => none
  | fuel + 1 =>
    match skipSpace cs with
    | [] => none
    | '"' :: rest => (readBody [] rest).map Prod.snd
    | '[' :: rest => skipElements fuel true rest
    | '{' :: rest => skipMembers fuel true rest
    | 'n' :: rest => keyword? "null".toList ('n' :: rest)
    | 't' :: rest => keyword? "true".toList ('t' :: rest)
    | 'f' :: rest => keyword? "false".toList ('f' :: rest)
    | c :: rest => (number? (c :: rest)).map Prod.snd
termination_by structural fuel

/-- Passes over the elements of an array up to its end. -/
def skipElements (fuel : Nat) (first : Bool) (cs : List Char) : Option (List Char) :=
  match fuel with
  | 0 => none
  | fuel + 1 =>
    match element? first cs with
    | none => none
    | some (.close rest) => some rest
    | some (.element rest) => (skipValue fuel rest).bind (skipElements fuel false)
termination_by structural fuel

/-- Passes over the members of an object up to its end. -/
def skipMembers (fuel : Nat) (first : Bool) (cs : List Char) : Option (List Char) :=
  match fuel with
  | 0 => none
  | fuel + 1 =>
    match member? first cs with
    | none => none
    | some (.close rest) => some rest
    | some (.member _ rest) => (skipValue fuel rest).bind (skipMembers fuel false)
termination_by structural fuel

end

/-- Passes over the value that starts here. Every nested step takes up a character, so the length of
the text bounds them. -/
def skip (cs : List Char) : Option (List Char) := skipValue (2 * cs.length + 2) cs

end ShellTemplate.Json
