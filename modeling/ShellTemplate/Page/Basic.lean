import ShellTemplate.Template.Basic

/-!
# Pages

A page is plain text with expressions in it. An expression is a variable, a constant, or a template
expanded with named values; its value can then be quoted any number of times.

* `Page.render` — the text of a page for given variables.
* `escapeMarkup` — a text with the characters that markup gives a meaning to written as entities.
-/

namespace ShellTemplate

open Shell

/-- A variable of a page or a constant. -/
inductive Operand where
  | named (name : String)
  | constant (value : Value)

/-- Where the value of an expression comes from: an operand, or a template that is expanded with
named values. -/
inductive Origin where
  | operand (operand : Operand)
  | command (template : String) (values : List (String × Operand))

/-- An expression: an origin and the styles in which its value is quoted in turn. -/
structure Expression where
  origin : Origin
  styles : List Style

/-- A piece of a page. -/
inductive Piece where
  | text (content : List Char)
  | expression (expression : Expression)

/-- A page: its pieces, and whether the values of its expressions are escaped for markup. -/
structure Page where
  pieces : List Piece
  escaped : Bool

/-- The variables of a page. -/
abbrev Variables := List (String × Value)

/-- The value of an operand; a variable without one is undefined. -/
def Operand.value (bindings : Variables) : Operand → Value
  | .named name => (bindings.lookup name).getD .undefined
  | .constant v => v

/-- The value that an expression starts from. -/
def Origin.value (bindings : Variables) : Origin → Except Error Value
  | .operand o => .ok (o.value bindings)
  | .command template values => do
    let t ← Template.make (.str template) "minimal"
    let line ← t.expandNamed (values.map fun (name, o) => (name, o.value bindings))
    return .str line

/-- The value of an expression: quoted in each of its styles in turn. -/
def Expression.value (bindings : Variables) (e : Expression) : Except Error Value := do
  let start ← e.origin.value bindings
  e.styles.foldlM (fun v style => (quoteValue style v).map Value.str) start

/-- The entity of a character that has a meaning in markup, any other character itself. -/
def entity (c : Char) : List Char :=
  if c = '&' then "&amp;".toList
  else if c = '<' then "&lt;".toList
  else if c = '>' then "&gt;".toList
  else if c = '\'' then "&#39;".toList
  else if c = '"' then "&#34;".toList
  else [c]

/-- A text without characters that have a meaning in markup. -/
def escapeMarkup (cs : List Char) : List Char := cs.flatMap entity

/-- The text of a piece. -/
def Piece.render (bindings : Variables) (escaped : Bool) : Piece → Except Error (List Char)
  | .text content => .ok content
  | .expression e => do
    let v ← e.value bindings
    let shown ← v.plain
    return if escaped then escapeMarkup shown.toList else shown.toList

/-- The text of a page. -/
def Page.render (bindings : Variables) (page : Page) : Except Error String :=
  (page.pieces.mapM (Piece.render bindings page.escaped)).map fun texts =>
    String.ofList texts.flatten

end ShellTemplate
