import ShellTemplate.Value.Basic
import ShellTemplate.Text.Quotation

/-!
# The written form of values

How messages and listings show a value: texts between quotes, numbers by their shortest texts,
collections in brackets, atoms, parts and contexts by the name of their kind and their one field. A
whole number with too many digits cannot be written, nor can a list that nests too deep.

* `Value.written` — the written form of a value that can be written.
* `Value.obstacle?` — the first thing in a value that keeps it from being written.
* `Value.shown` — the written form, or the error of writing.
-/

namespace ShellTemplate

open Number Text

/-- Texts with a comma between them. -/
def commaSeparated (texts : List String) : String := String.intercalate ", " texts

/-- The written form of a reference. -/
def Ref.written : Ref → String
  | .name s => quotation s
  | .position n => integerText n

/-- The written form of an atom. -/
def Atom.written (a : Atom) : String :=
  let field := match a with
    | .identifier _ => "name="
    | .text _ => "value="
    | .number _ => "text="
  a.typeName ++ "(" ++ field ++ quotation a.content ++ ")"

/-- The written form of a part. -/
def Part.written : Part → String
  | literal a => "Literal(atom=" ++ a.written ++ ")"
  | placeholder p => p.typeName ++ "(ref=" ++ p.ref.written ++ ")"

/-- The written form of a range; the step is left out where it is one. -/
def rangeText (start stop step : Int) : String :=
  "range(" ++
    commaSeparated ((if step = 1 then [start, stop] else [start, stop, step]).map integerText)
    ++ ")"

mutual

/-- The written form of a value. -/
def Value.written : Value → String
  | .null => "None"
  | .bool b => if b then "True" else "False"
  | .int n => integerText n
  | .str s => quotation s
  | .float x => String.ofList x.toChars
  | .decimal d => "Decimal('" ++ String.ofList d.toChars ++ "')"
  | .bytes bs => byteQuotation bs
  | .bytearray bs => "bytearray(" ++ byteQuotation bs ++ ")"
  | .list items => "[" ++ commaSeparated (Value.writtenItems items) ++ "]"
  | .bottomless => "[...]"
  | .tuple items =>
    match Value.writtenItems items with
    | [item] => "(" ++ item ++ ",)"
    | texts => "(" ++ commaSeparated texts ++ ")"
  | .set items =>
    match Value.writtenItems items with
    | [] => "set()"
    | texts => "\x7b" ++ commaSeparated texts ++ "\x7d"
  | .range start stop step => rangeText start stop step
  | .dict entries => "\x7b" ++ commaSeparated (Value.writtenEntries entries) ++ "\x7d"
  | .atom a => a.written
  | .part p => p.written
  | .context c => c.written
  | .timestamp text => text
  | .undefined => "Undefined"
termination_by structural v => v

/-- The written forms of the items of a collection. -/
def Value.writtenItems : List Value → List String
  | [] => []
  | item :: rest => item.written :: Value.writtenItems rest
termination_by structural items => items

/-- The written forms of the entries of a dictionary. -/
def Value.writtenEntries : List (Value × Value) → List String
  | [] => []
  | (key, value) :: rest => (key.written ++ ": " ++ value.written) :: Value.writtenEntries rest
termination_by structural entries => entries

/-- The written form of a context. A chain has none of its own and is shown by its type. -/
def Context.written : Context → String
  | .mapping values => "MappingContext(values=" ++ values.written ++ ")"
  | .frame values => "FrameContext(values=" ++ values.written ++ ")"
  | .sequence values => "SequenceContext(values=" ++ values.written ++ ")"
  | .chain _ => "<ChainContext object>"
  | .custom _ written _ => written
termination_by structural c => c

end

/-! ## What cannot be written -/

/-- What keeps a value from being written: a whole number with too many digits, or a list that nests
too deep. -/
inductive Obstacle where
  | digits
  | depth
deriving DecidableEq, Repr

/-- The error of writing a value in spite of an obstacle. -/
def Obstacle.error : Obstacle → Error
  | digits => .tooManyDigits none
  | depth => .nestedTooDeep

/-- The obstacle that a whole number is. -/
def integerObstacle? (n : Int) : Option Obstacle :=
  if maxDigits < (digits n.natAbs).length then some .digits else none

/-- The obstacle in a part, which is its position. -/
def Part.obstacle? : Part → Option Obstacle
  | literal _ => none
  | placeholder ⟨_, _, .name _⟩ => none
  | placeholder ⟨_, _, .position n⟩ => integerObstacle? n

/-- The first obstacle in a range; the step is left out where it is one. -/
def rangeObstacle? (start stop step : Int) : Option Obstacle :=
  (if step = 1 then [start, stop] else [start, stop, step]).findSome? integerObstacle?

mutual

/-- The first obstacle that is met in writing a value. -/
def Value.obstacle? : Value → Option Obstacle
  | .int n => integerObstacle? n
  | .list items | .tuple items | .set items => Value.obstacleOfItems? items
  | .bottomless => some .depth
  | .range start stop step => rangeObstacle? start stop step
  | .dict entries => Value.obstacleOfEntries? entries
  | .part p => p.obstacle?
  | .context c => c.obstacle?
  | _ => none
termination_by structural v => v

/-- The first obstacle in the items of a collection. -/
def Value.obstacleOfItems? : List Value → Option Obstacle
  | [] => none
  | item :: rest => item.obstacle? <|> Value.obstacleOfItems? rest
termination_by structural items => items

/-- The first obstacle in the entries of a dictionary. -/
def Value.obstacleOfEntries? : List (Value × Value) → Option Obstacle
  | [] => none
  | (key, value) :: rest => key.obstacle? <|> value.obstacle? <|> Value.obstacleOfEntries? rest
termination_by structural entries => entries

/-- The first obstacle in the values of a context. -/
def Context.obstacle? : Context → Option Obstacle
  | .mapping values | .frame values | .sequence values => values.obstacle?
  | .chain _ | .custom _ _ _ => none
termination_by structural c => c

end

/-- A value that can be written. -/
def Value.IsWritable (v : Value) : Prop := v.obstacle? = none

instance : DecidablePred Value.IsWritable := fun v =>
  inferInstanceAs (Decidable (v.obstacle? = none))

/-- The written form of a value, unless it cannot be written. -/
def Value.shown (v : Value) : Except Error String :=
  match v.obstacle? with
  | some obstacle => .error obstacle.error
  | none => .ok v.written

/-- The text of a value put into a page: a text stands for itself, a decimal number for its digits,
what is undefined for nothing, and the rest for its written form. -/
def Value.plain : Value → Except Error String
  | .str s => .ok s
  | .decimal d => .ok (String.ofList d.toChars)
  | .undefined => .ok ""
  | v => v.shown

end ShellTemplate
