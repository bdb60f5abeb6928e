import ShellTemplate.Part
import ShellTemplate.Fault
import ShellTemplate.Number.Shortest

/-!
# Values, contexts and errors

The values that can be offered to an expansion, the contexts that look references up in them, and
the errors that name them. Contexts are themselves values, because a context may be handed over
where a value is expected; a context of the caller's own may fail with any error.

Functions on values are families of mutually recursive functions: one on values, one on lists of
values, one on the entries of a dictionary, and where contexts matter one on contexts and one on
lists of contexts.
-/

namespace ShellTemplate

open Number

mutual

/-- A value offered to an expansion. A dictionary is the list of its entries in insertion order, a
set the list of its elements in the order in which it hands them out. -/
inductive Value where
  | null
  | bool (b : Bool)
  | int (n : Int)
  | str (s : String)
  | float (x : Binary64)
  | decimal (d : Decimal)
  | bytes (bs : List UInt8)
  | bytearray (bs : List UInt8)
  | list (items : List Value)
  /-- A list that nests deeper than the interpreter follows: its one item is such a list again. -/
  | bottomless
  | tuple (items : List Value)
  | set (items : List Value)
  | range (start stop step : Int)
  | dict (entries : List (Value × Value))
  | atom (atom : Atom)
  | part (part : Part)
  | context (context : Context)
  /-- A calendar date or time, kept as it was written. -/
  | timestamp (text : String)
  /-- What stands for a variable that a page does not define. -/
  | undefined

/-- Where references get their values. A mapping looks keys up, a frame is a mapping of the
variables of a caller, a sequence takes positions, and a chain tries its members in turn. A context
of the caller's own is an object of some type, with a written form, that answers each reference as
it likes. -/
inductive Context where
  | mapping (values : Value)
  | frame (values : Value)
  | sequence (values : Value)
  | chain (members : List Context)
  | custom (typeName written : String) (answer : Ref → Except Error Value)

/-- What is wrong with a template or a reference. -/
inductive SyntaxFault where
  | malformedPlaceholder
  | placeholderNotAlone
  | quoteNotAlone
  | unterminatedQuote
  | looseBrace (brace : Char)
  | quoteInWord
  | emptyName
  | negativePosition (position : Int)
  | invalidReference (value : Value)
  /-- A complaint in a caller's own words. -/
  | other (text : String)

/-- The failures of building, reading, resolving and expanding. -/
inductive Error where
  /-- A value is no scalar; it was met at a part of a template, for a reference. -/
  | badAtom (value : Value) (index : Option Nat) (ref : Option Value)
  /-- A reference has no binding. -/
  | unresolved (ref : Value) (index : Option Nat)
  /-- A scalar was given for a list or a list for a scalar. -/
  | typeMismatch (ref : Value) (expected : String) (value : Value) (index : Option Nat)
  /-- A template or a reference is malformed. -/
  | templateFault (fault : SyntaxFault) (template : String) (column : Option Nat)
  /-- A configuration is refused. -/
  | config (path : String) (fault : ConfigFault)
  /-- A template's source that is no text. -/
  | notText (typeName : String)
  /-- A value that cannot serve as a context. -/
  | notContext (typeName : String)
  /-- A value among the parts of a template that is no part. -/
  | notPart (index : Nat) (value : Value)
  | notIterable (typeName : String)
  | notSubscriptable (typeName : String)
  | badSubscript (container key : String)
  | noLength (typeName : String)
  | unhashable (value : Value)
  | missingKey (key : Value)
  | indexOutOfRange (typeName : String)
  | indexTooLarge
  | lengthTooLarge
  | unknownStyle (name : String)
  /-- A position, or a whole number to be written, with too many digits. The digits are counted
  when they are read. -/
  | tooManyDigits (count : Option Nat)
  /-- A value to be written that nests deeper than the interpreter follows. -/
  | nestedTooDeep
  | zeroStep
  /-- There are fewer frames than an expansion looks up for variables. -/
  | shallowStack
  | badNumeral (text : String)
  | isDirectory (path : String)
  | notUtf8 (fault : Utf8Fault)
  | scalar (fault : ScalarFault)
  | malformedPage (detail : String)
  /-- An error from outside, of no family, in its own words. -/
  | foreign (text : String)

end

instance : Inhabited Value := ⟨.null⟩
instance : Inhabited Context := ⟨.chain []⟩

/-- A reference as a value. -/
def Ref.toValue : Ref → Value
  | .name s => .str s
  | .position n => .int n

/-- The name of the kind of an atom. -/
def Atom.typeName : Atom → String
  | .identifier _ => "Identifier"
  | .text _ => "Text"
  | .number _ => "Number"

/-- The name of the kind of a placeholder. -/
def Placeholder.typeName (p : Placeholder) : String :=
  (if p.verbatim then "Escaped" else "Interpolated") ++ (if p.list then "List" else "")

/-- The name of the kind of a part. -/
def Part.typeName : Part → String
  | literal _ => "Literal"
  | placeholder p => p.typeName

/-- The name of the kind of a context. -/
def Context.typeName : Context → String
  | .mapping _ => "MappingContext"
  | .frame _ => "FrameContext"
  | .sequence _ => "SequenceContext"
  | .chain _ => "ChainContext"
  | .custom typeName _ _ => typeName

/-- The name of the type of a value, as messages show it. -/
def Value.typeName : Value → String
  | .null => "NoneType"
  | .bool _ => "bool"
  | .int _ => "int"
  | .str _ => "str"
  | .float _ => "float"
  | .decimal _ => "Decimal"
  | .bytes _ => "bytes"
  | .bytearray _ => "bytearray"
  | .list _ | .bottomless => "list"
  | .tuple _ => "tuple"
  | .set _ => "set"
  | .range _ _ _ => "range"
  | .dict _ => "dict"
  | .atom a => a.typeName
  | .part p => p.typeName
  | .context c => c.typeName
  | .timestamp _ => "datetime"
  | .undefined => "Undefined"

end ShellTemplate
