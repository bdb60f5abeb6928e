import ShellTemplate.Template.Reader

/-!
# Scanning a template

A scanner stands at a position of a template. Its readers can be called in any order; each of them
goes on where the last one stopped, also where that one failed.

* `Call.read` — what a call reads from the text that is still to be read.
* `turns` — some calls, one after the other.
-/

namespace ShellTemplate.Template

/-- A call of a reader: of the one of blanks, of a word, of a bare word, of a quoted text, whose
quote is the next character, or of all words that are left. -/
inductive Call where
  | blanks
  | word
  | bare
  | quoted
  | template
deriving DecidableEq, Repr

/-- What a call returns. -/
inductive Answer where
  | nothing
  | part (part : Part)
  | text (text : List Char)
  | parts (parts : List Part)
deriving DecidableEq, Repr

/-- What a call reads. -/
def Call.read : Call → List Char → Reading Answer
  | blanks, cs => .done .nothing (skipBlanks cs)
  | word, cs => (Template.word cs).map .part
  | bare, cs => (Template.bare cs).map .text
  | quoted, cs => (Template.quoted cs).map .text
  | template, cs => (readParts [] cs).map .parts

/-- A call that was made: the position it started at, its outcome, and the position it stopped at. -/
structure Turn where
  call : Call
  start : Nat
  outcome : Reading Answer
  stop : Nat

/-- The turn of a call at a position. -/
def Call.turn (t : List Char) (p : Nat) (call : Call) : Turn :=
  let outcome := call.read (t.drop p)
  ⟨call, p, outcome, t.length - outcome.rest.length⟩

/-- The turns of some calls, each of which starts where the last one stopped. -/
def turns (t : List Char) (p : Nat) : List Call → List Turn
  | [] => []
  | call :: calls => call.turn t p :: turns t (call.turn t p).stop calls

end ShellTemplate.Template
