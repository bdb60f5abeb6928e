import ShellTemplate.Template.Reader

/-!
# Writing templates in short form

Parts are written word by word with a space between them: texts between double quotes, identifiers
with their braces doubled, numbers as they are, and placeholders between braces.

* `write` — a template of a list of parts.
* `isExpressible` — the parts that have a short form.
-/

namespace ShellTemplate.Template

open Text Number

/-- A character between double quotes. -/
def escapeChar (c : Char) : List Char := if c = '"' ∨ c = '\\' then ['\\', c] else [c]

/-- A character of a bare word. -/
def doubleBrace (c : Char) : List Char := if c = '{' ∨ c = '}' then [c, c] else [c]

/-- A reference as it stands between braces. -/
def refSource : Ref → List Char
  | .name s => s.toList
  | .position n => digits n

/-- A literal as a word. -/
def atomSource : Atom → List Char
  | .text s => '"' :: (s.toList.flatMap escapeChar ++ ['"'])
  | .identifier s => s.toList.flatMap doubleBrace
  | .number s => s.toList

/-- A placeholder as a word. -/
def placeholderSource (place : Placeholder) : List Char :=
  '{' :: ((if place.verbatim then ['!'] else []) ++ (if place.list then ['*'] else []) ++
    refSource place.ref ++ ['}'])

/-- A part as a word. -/
def wordSource : Part → List Char
  | .literal a => atomSource a
  | .placeholder place => placeholderSource place

/-- A template of some parts. -/
def write (parts : List Part) : String :=
  String.ofList (List.intercalate [' '] (parts.map wordSource))

/-- What can be written between the braces of a placeholder: an ASCII name, or a position with no
more digits than are read. -/
def isExpressibleRef : Ref → Bool
  | .name s =>
    match s.toList with
    | [] => false
    | c :: rest => isNameStart c && rest.all isNameChar
  | .position n => (digits n).length ≤ maxDigits

/-- The literals that have a short form: all texts, numbers without an exponent, and names without
blanks and quotes that do not look like a number. -/
def isExpressibleAtom : Atom → Bool
  | .text _ => true
  | .number s => isNumber s.toList
  | .identifier s =>
    !s.toList.isEmpty && s.toList.all (fun c => !isBlank c && c != '\'' && c != '"') &&
      !isNumber s.toList

/-- The parts that have a short form. -/
def isExpressible : Part → Bool
  | .literal a => isExpressibleAtom a
  | .placeholder place => isExpressibleRef place.ref

end ShellTemplate.Template
