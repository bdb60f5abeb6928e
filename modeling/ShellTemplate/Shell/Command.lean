import ShellTemplate.Shell.Words
import ShellTemplate.Text.Digit

/-!
# The first word of a command

A shell looks at the first word of a line as it is written, quotes and all: an assignment or a
reserved word is no name of a command.
-/

namespace ShellTemplate.Shell

open Text

/-- Whether a word as it is written assigns to a variable: a name and an equals sign start it. -/
def isAssignment : List Char → Bool
  | [] => false
  | c :: rest => isNameStart c && (rest.dropWhile isNameChar).head? == some '='

/-- The words that have a meaning of their own at the start of a command. -/
def reservedWords : List String := [
    "!", "\x7b", "\x7d", "case", "do", "done", "elif", "else", "esac", "fi", "for", "if", "in",
    "then", "until", "while"]

/-- Whether a word as it is written is a reserved word. -/
def isReserved (written : List Char) : Bool := reservedWords.contains (String.ofList written)

/-- The first word of a line: the line up to a separator or to its end is read as this word alone.
What stands behind it need not be readable. -/
def Rules.IsFirstWord (rules : Rules) (line : List Char) (w : Word) : Prop :=
  ∃ front rest, line = front ++ rest ∧ rules.words? front = some [w] ∧
    ∀ c ∈ rest.head?, isSeparator c = true

/-- Whether the first word of a line names a command. -/
def Word.isCommandName (w : Word) : Bool := !isAssignment w.written && !isReserved w.written

end ShellTemplate.Shell
