/-!
# A place in a YAML text

YAML gives a meaning to the column that a token stands in, so a text is read with a cursor that
knows its line and column.

* `Cursor.advance`, `Cursor.forward` — over one character, over several.
* `Cursor.takeSpan` — over all characters of a class.
-/

namespace ShellTemplate.Yaml

/-- The rest of a text, and where it starts. -/
structure Cursor where
  rest : List Char
  index : Nat
  line : Nat
  column : Nat

/-- The characters that end a line: line feed, next line, line and paragraph separator. -/
def isBreak (c : Char) : Bool :=
  c = '\n' || c.toNat = 0x85 || c.toNat = 0x2028 || c.toNat = 0x2029

/-- Space and tab. -/
def isInline (c : Char) : Bool := c = ' ' || c = '\t'

/-- Whether a line ends here. -/
def endsLine : Option Char → Bool
  | none => true
  | some c => isBreak c

/-- Whether a line ends here or a space follows. -/
def endsItem : Option Char → Bool
  | none => true
  | some c => c = ' ' || isBreak c

/-- Whether a line ends here or a space or a tab follows. -/
def endsWord : Option Char → Bool
  | none => true
  | some c => isInline c || isBreak c

/-- The byte order mark, which takes up no column. -/
def byteOrderMark : Char := Char.ofNat 0xFEFF

namespace Cursor

/-- The start of a text. -/
def start (text : List Char) : Cursor := ⟨text, 0, 0, 0⟩

/-- The character that the cursor stands at. -/
def peek (c : Cursor) : Option Char := c.rest.head?

/-- The character a number of places on. -/
def peekAt (c : Cursor) (n : Nat) : Option Char := c.rest[n]?

/-- The place behind the next character. -/
def advance (c : Cursor) : Cursor :=
  match c.rest with
  | [] => c
  | d :: rest =>
    if isBreak d then ⟨rest, c.index + 1, c.line + 1, 0⟩
    else ⟨rest, c.index + 1, c.line, if d = byteOrderMark then c.column else c.column + 1⟩

/-- The place a number of characters on. -/
def forward : Nat → Cursor → Cursor
  | 0, c => c
  | n + 1, c => forward n c.advance

/-- The characters of a class that stand here, and the place behind them. -/
def takeSpan (p : Char → Bool) (c : Cursor) : List Char × Cursor :=
  let span := c.rest.takeWhile p
  (span, c.forward span.length)

/-- The place behind the characters of a class that stand here. -/
def skipSpan (p : Char → Bool) (c : Cursor) : Cursor := (c.takeSpan p).2

/-- The place behind the spaces that stand here. -/
def skipSpaces (c : Cursor) : Cursor := c.skipSpan (· = ' ')

/-- The place behind a comment, if one starts here. -/
def skipComment (c : Cursor) : Cursor :=
  if c.peek = some '#' then c.skipSpan (!isBreak ·) else c

/-- A line break that stands here, and the place behind it. A next-line character counts as a line
feed. -/
def lineBreak? (c : Cursor) : Option (Char × Cursor) :=
  match c.peek with
  | none => none
  | some d => if isBreak d then some (if d.toNat = 0x85 then '\n' else d, c.advance) else none

/-- Whether three characters stand here, and nothing else in their word. -/
def atMark (mark : List Char) (c : Cursor) : Bool :=
  mark.isPrefixOf c.rest && endsWord (c.peekAt mark.length)

/-- Whether a line that starts or ends a document stands here. -/
def atSeparator (c : Cursor) : Bool := c.atMark ['-', '-', '-'] || c.atMark ['.', '.', '.']

end Cursor

end ShellTemplate.Yaml
