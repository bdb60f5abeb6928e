import ShellTemplate.Checked
import ShellTemplate.Context
import ShellTemplate.Shell.Quote

/-!
# Expansion

A list of parts and a context give one command line: each part gives a token, and a single space
stands between tokens. Literals and quoted placeholders are quoted, verbatim placeholders are not.
A list placeholder gives one token whatever the list, so an empty list leaves an empty token.

* `expand` — the command line of a list of parts.
* `expandValue` — the same for parts given as any value with items.
-/

namespace ShellTemplate

open Shell

/-- The value of a placeholder's reference. -/
def lookUp (resolve : Resolver) (index : Nat) (ref : Ref) : Except Error Value :=
  (resolve ref).mapError (Error.place index)

/-- The unquoted text of a scalar that a reference gave. -/
def scalarText (index : Nat) (ref : Ref) (v : Value) : Except Error String :=
  ((Atom.ofValue v).map Atom.content).mapError (Error.locate index ref.toValue)

/-- The refusal of a value that is not of the kind that a placeholder takes. -/
def mismatch (index : Nat) (ref : Ref) (expected : String) (v : Value) : Error :=
  (Error.typeMismatch ref.toValue expected v (some index)).raised

/-- The unquoted texts that a placeholder stands for: one for a scalar, one for each item of a
list. -/
def placeTexts (resolve : Resolver) (index : Nat) (place : Placeholder) :
    Except Error (List String) := do
  let value ← lookUp resolve index place.ref
  match place.list, value.listItems? with
  | true, some items => items.mapM (scalarText index place.ref)
  | true, none => .error (mismatch index place.ref "list" value)
  | false, some _ => .error (mismatch index place.ref "scalar" value)
  | false, none => (scalarText index place.ref value).map fun text => [text]

/-- The unquoted texts that a part stands for. -/
def partTexts (resolve : Resolver) (index : Nat) : Part → Except Error (List String)
  | .literal a => .ok [a.content]
  | .placeholder place => placeTexts resolve index place

/-- Whether the texts of a part are inserted as they are. -/
def Part.isVerbatim : Part → Bool
  | .literal _ => false
  | .placeholder place => place.verbatim

/-- Texts as they stand in a token: quoted, or as they are. -/
def inserted (style : Style) (verbatim : Bool) (texts : List String) : List String :=
  if verbatim then texts else texts.map (quoteText style)

/-- Texts with a single space between them. -/
def spaced (texts : List String) : String := String.intercalate " " texts

/-- The token of a part. -/
def token (style : Style) (resolve : Resolver) (index : Nat) (part : Part) : Except Error String :=
  (partTexts resolve index part).map fun texts => spaced (inserted style part.isVerbatim texts)

/-- The token of a value among the parts; what is no part is refused. -/
def tokenOfValue (style : Style) (resolve : Resolver) (index : Nat) : Value → Except Error String
  | .part part => token style resolve index part
  | v => .error (Error.notPart index v).raised

/-- The tokens of values among the parts, the first of them at an index. -/
def tokensFrom (style : Style) (resolve : Resolver) : Nat → List Value → Except Error (List String)
  | _, [] => .ok []
  | index, v :: rest => do
    let first ← tokenOfValue style resolve index v
    let others ← tokensFrom style resolve (index + 1) rest
    return first :: others

/-- The command line of values that should be parts. -/
def expandItems (style : Style) (resolve : Resolver) (items : List Value) : Except Error String :=
  (tokensFrom style resolve 0 items).map spaced

/-- The command line of a list of parts in a context. -/
def expand (style : Style) (context : Context) (parts : List Part) : Except Error String :=
  expandItems style context.resolver (parts.map .part)

/-- The style of a name; other names are refused. -/
def styleOf (name : String) : Except Error Style :=
  match Style.ofName? name with
  | some style => .ok style
  | none => .error (.unknownStyle name)

/-- The command line of any value with items, in whatever serves as a context, in a style given by
its name. -/
def expandValue (style : String) (parts context : Value) : Except Error String := do
  let style ← styleOf style
  let context ← Context.ofValue context
  let items ← parts.items
  expandItems style context.resolver items

/-- A scalar as one word, or each item of a list, a tuple, a range or a byte array as one. -/
def quoteValue (style : Style) (v : Value) : Except Error String :=
  let word := fun item => (Atom.ofValue item).map fun a => quoteText style a.content
  match v with
  | .bytearray bs => ((byteItems bs).mapM word).map spaced
  | v =>
    match v.listItems? with
    | some items => (items.mapM word).map spaced
    | none => word v

end ShellTemplate
