import ShellTemplate.Shell.Quote

/-!
# Reading a command line

A shell cuts a line into words at the blanks and newlines outside of quotations, and takes the
quotes away. Between apostrophes every character is itself. A backslash outside of quotations makes
the next character itself, and between double quotes it does so for a double quote or a backslash.
What else may stand outside of quotations is a matter of the rules of the reader.

* `Rules.words?` — the words of a line, none where the line breaks the rules or does not end its
  last quotation.
* `Rules.run_append` — reading goes on from where it stopped.
-/

namespace ShellTemplate.Shell

/-- What a reader takes outside of quotations: the characters that are themselves, and whether a
double quote starts a quotation. -/
structure Rules where
  isItself : Char → Bool
  doubleQuotes : Bool

/-- The characters that stand for themselves at every place of a word: the ASCII letters and digits
and nine signs. -/
def isInert (c : Char) : Bool :=
  "ABCDEFGHIJKLMNOPQRSTUVWXYZabcdefghijklmnopqrstuvwxyz0123456789@%+:,./_-".toList.contains c

/-- Only inert characters are themselves; quotations are between apostrophes. -/
def Rules.strict : Rules := ⟨isInert, false⟩

/-- All characters are themselves that quote nothing. -/
def Rules.lenient : Rules := ⟨fun _ => true, true⟩

/-- All characters are themselves that neither quote nor start a comment. -/
def Rules.uncommented : Rules := ⟨fun c => c ≠ '#', true⟩

/-- A word: as it is written, and as it is read. -/
structure Word where
  written : List Char
  text : List Char
deriving DecidableEq, Repr, Inhabited

/-- Where in a word a reader is. -/
inductive Place where
  | bare
  | escaped
  | apostrophes
  | doubleQuotes
  | doubleQuotesEscaped
deriving DecidableEq, Repr, Inhabited

/-- How far a reader got: the words read, the word being read if there is one, and the place in
it. -/
structure Progress where
  words : List Word
  word : Option Word
  place : Place
deriving DecidableEq, Repr, Inhabited

namespace Progress

/-- Nothing is read yet. -/
def start : Progress := ⟨[], none, .bare⟩

/-- The words read, with the one being read. -/
def allWords (p : Progress) : List Word := p.words ++ p.word.toList

/-- A separator ends the word being read, if there is one. -/
def endWord (p : Progress) : Progress := ⟨p.allWords, none, .bare⟩

/-- A character goes on or starts a word; it means some text and leads to a place. -/
def add (p : Progress) (c : Char) (meaning : List Char) (place : Place) : Progress :=
  let w := p.word.getD ⟨[], []⟩
  ⟨p.words, some ⟨w.written ++ [c], w.text ++ meaning⟩, place⟩

end Progress

/-- The characters that separate words. -/
def isSeparator (c : Char) : Bool := c = ' ' || c = '\t' || c = '\n'

namespace Rules

/-- Reads a character outside of quotations. -/
def stepBare (rules : Rules) (p : Progress) (c : Char) : Option Progress :=
  if isSeparator c then some p.endWord
  else if c = '\'' then some (p.add c [] .apostrophes)
  else if c = '\\' then some (p.add c [] .escaped)
  else if rules.doubleQuotes ∧ c = '"' then some (p.add c [] .doubleQuotes)
  else if rules.isItself c then some (p.add c [c] .bare)
  else none

/-- Reads a character. -/
def step (rules : Rules) (p : Progress) (c : Char) : Option Progress :=
  match p.place with
  | .bare => rules.stepBare p c
  | .escaped => some (p.add c [c] .bare)
  | .apostrophes =>
    some (if c = '\'' then p.add c [] .bare else p.add c [c] .apostrophes)
  | .doubleQuotes =>
    some (if c = '"' then p.add c [] .bare
      else if c = '\\' then p.add c [] .doubleQuotesEscaped
      else p.add c [c] .doubleQuotes)
  | .doubleQuotesEscaped =>
    some (p.add c (if c = '"' ∨ c = '\\' then [c] else ['\\', c]) .doubleQuotes)

/-- Reads on from where a reader is. -/
def run (rules : Rules) (p : Progress) (cs : List Char) : Option Progress := cs.foldlM rules.step p

theorem run_append (rules : Rules) (p : Progress) (cs ds : List Char) :
    rules.run p (cs ++ ds) = (rules.run p cs).bind fun q => rules.run q ds := by
  simp [run, List.foldlM_append]

/-- The words of a line. -/
def words? (rules : Rules) (line : List Char) : Option (List Word) :=
  (rules.run .start line).bind fun p => if p.place = .bare then some p.allWords else none

/-- The texts that the words of a line are read as. -/
def texts? (rules : Rules) (line : List Char) : Option (List (List Char)) :=
  (rules.words? line).map (List.map Word.text)

end Rules

/-- A text that ends all of its quotations and holds no comment. -/
def IsClosed (cs : List Char) : Prop := (Rules.uncommented.words? cs).isSome

instance (cs : List Char) : Decidable (IsClosed cs) :=
  inferInstanceAs (Decidable ((Rules.uncommented.words? cs).isSome = true))

end ShellTemplate.Shell
