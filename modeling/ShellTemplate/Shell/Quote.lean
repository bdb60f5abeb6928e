/-!
# Quoting words for a POSIX shell

Between apostrophes a shell reads every character as itself, except the apostrophe, which ends the
quotation. So a text is quoted by apostrophes around it, with each apostrophe inside written as
`'\''`: the end of the quotation, an escaped apostrophe, and the start of the next quotation.

* `quote` — a text between apostrophes; `quoteWord` — a text as it stands in a command line.
-/

namespace ShellTemplate.Shell

/-- When a word is quoted: only where it needs to be, or always. -/
inductive Style where
  | minimal
  | always
deriving DecidableEq, Repr, Inhabited

/-- The name of a style. -/
def Style.name : Style → String
  | minimal => "minimal"
  | always => "always"

/-- The style of a name. -/
def Style.ofName? (name : String) : Option Style :=
  if name = "minimal" then some .minimal
  else if name = "always" then some .always
  else none

/-- The style of a name where any name other than the minimal one asks for quotes. -/
def Style.ofNameOrAlways (name : String) : Style := (Style.ofName? name).getD .always

/-- One character between apostrophes. -/
def quoteChar (c : Char) : List Char :=
  if c = '\'' then ['\'', '\\', '\'', '\''] else [c]

/-- A text between apostrophes. -/
def quote (cs : List Char) : List Char := '\'' :: (cs.flatMap quoteChar ++ ['\''])

/-- The characters that no shell treats specially at any place of a word. The equals sign is not
among them: a first word `NAME=value` would be an assignment. -/
def isSafe (c : Char) : Bool :=
  c.isAlphanum || ['@', '%', '+', ':', ',', '.', '/', '_', '-'].contains c

/-- Whether a text can stand in a command line as it is. -/
def isSafeWord (cs : List Char) : Bool := !cs.isEmpty && cs.all isSafe

/-- A text as one word of a command line. -/
def quoteWord (style : Style) (cs : List Char) : List Char :=
  if style = .minimal ∧ isSafeWord cs then cs else quote cs

/-- A text as one word of a command line. -/
def quoteText (style : Style) (s : String) : String := String.ofList (quoteWord style s.toList)

end ShellTemplate.Shell
