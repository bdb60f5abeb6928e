import ShellTemplate.Template.Reader
import ShellTemplate.Expansion

/-!
# Templates

A template is parsed once and expanded many times: its parts, the text they were read from if they
were, and the style of its expansions.

* `Template.make` — the template of a text or of given parts.
* `Template.expand` — the command line of a template; named values come before the context.
* `expandTextFrom` — a text read and expanded at once, by default with the variables of the caller.
-/

namespace ShellTemplate

open Shell

/-- A template. Values that are no parts are kept among the parts and refused when expanding. -/
structure Template where
  source : Option String
  parts : List Value
  style : Style

namespace Template

/-- The template of a text, or of the items of any other value. -/
def make (source : Value) (style : String) : Except Error Template := do
  let (text, parts) ← match source with
    | .str s => (parse s).map fun parts => (some s, parts.map Value.part)
    | v => v.items.map fun items => (none, items)
  let style ← styleOf style
  return ⟨text, parts, style⟩

/-- The parts among some values. -/
def partsOf (items : List Value) : List Part :=
  items.filterMap fun
    | .part part => some part
    | _ => none

/-- The references that a template uses, in the order of their first use. -/
def names (t : Template) : List Ref := Part.references (partsOf t.parts)

/-- The context of an expansion: named values come before a context that is given. -/
def contextFor (context : Value) (values : List (String × Value)) : Except Error Context :=
  let named := Context.mapping (.dict (Dict.ofNamed values))
  match values, context with
  | [], context => Context.ofValue context
  | _, .null => .ok named
  | _, context => (Context.ofValue context).map fun c => .chain [named, c]

/-- The command line of a template in a context and with named values. -/
def expand (t : Template) (context : Value) (values : List (String × Value)) :
    Except Error String := do
  let context ← contextFor context values
  expandItems t.style context.resolver t.parts

/-- The command line of a template with named values alone; one that is named `context` serves as
the context. -/
def expandNamed (t : Template) (values : List (String × Value)) : Except Error String :=
  t.expand ((values.lookup "context").getD .null) (values.filter fun v => v.1 != "context")

/-- The written form of a template, unless one of its parts cannot be written. -/
def shown (t : Template) : Except Error String :=
  let field := match t.source with
    | some s => Value.str s
    | none => .list t.parts
  field.shown.map fun text => "Template(" ++ text ++ ")"

end Template

/-- The frame of a call that expands a text: what the call was given is local to it. -/
def callFrame (source : String) (context : Value) (values : List (String × Value)) : Frame where
  globals := []
  locals := [("source", .str source), ("context", context), ("values", .dict (Dict.ofNamed values))]

/-- What serves as the context of a call that expands a text, the frames above it listed from the
outermost on. A call that was given neither a context nor named values takes the variables of the
frame that it was made from, one frame above its own. -/
def contextOfCall (callers : List Frame) (source : String) (context : Value)
    (values : List (String × Value)) : Except Error Value :=
  match context, values with
  | .null, [] =>
    match Frame.capture (callers ++ [callFrame source .null []]) 1 with
    | some captured => .ok (.context captured)
    | none => .error .shallowStack
  | context, _ => .ok context

/-- Reads and expands a text in one go, in a call that was made from the innermost of some
frames. -/
def expandTextFrom (callers : List Frame) (source : String) (context : Value)
    (values : List (String × Value)) : Except Error String := do
  let context ← contextOfCall callers source context values
  let t ← Template.make (.str source) "minimal"
  t.expand context values

/-- Reads and expands a text in one go, in a call that was made from a single frame. -/
def expandText (source : String) (context : Value) (values : List (String × Value))
    (caller : Frame) : Except Error String :=
  expandTextFrom [caller] source context values

end ShellTemplate
