import ShellTemplate.Value.Items
import ShellTemplate.Yaml.Base64
import ShellTemplate.Yaml.Node

/-!
# The value of a YAML document

Each node of a document has a value of its type. Collections are filled in from the outermost level
inwards, so of several faults the one on the outermost level counts, and of those on one level the
first.

* `readDocument` — the value of the one document of a text; a text without one is null.
-/

namespace ShellTemplate.Yaml

/-- A result, or a fault with the level it was met on. -/
abbrev Levelled := Except (Nat × Fault)

/-- Two results, of whose faults the one on the outer level counts, and the first of one level. -/
def both {α β : Type} : Levelled α → Levelled β → Levelled (α × β)
  | .ok a, .ok b => .ok (a, b)
  | .error (level, fault), .error (level', fault') =>
    if level ≤ level' then .error (level, fault) else .error (level', fault')
  | .error e, .ok _ | .ok _, .error e => .error e

/-- The refusal of a node on a level. -/
def misplaced {α : Type} (level : Nat) : Levelled α := .error (level, .malformed)

/-- The truth value of a text, whatever the case of its letters. -/
def truthValue (text : List Char) : Except Error Value :=
  let lower := String.ofList (text.map Char.toLower)
  if ["yes", "true", "on"].contains lower then .ok (.bool true)
  else if ["no", "false", "off"].contains lower then .ok (.bool false)
  else .error (.scalar (.truth lower))

/-- The date or time of a text. It is looked for in the scalar itself, so none is found where a
mapping stands for the scalar. -/
def timestampValue (mapped : Bool) (text : List Char) : Except Error Value :=
  if mapped then .error (.scalar (.noText "list"))
  else match Timestamp.ofChars? text with
  | none => .error (.scalar .noDate)
  | some t =>
    match t.fault? with
    | some fault => .error (.scalar (.date fault))
    | none => .ok (.timestamp (String.ofList text))

/-- A value of a level with its fault. -/
def onLevel {α : Type} (level : Nat) (result : Except Error α) : Levelled α :=
  result.mapError fun e => (level, .scalar e)

/-- The value of a scalar of some type, or of a mapping that stands for one. -/
def scalarValue (level : Nat) (tag : Tag) (mapped : Bool) (text : List Char) : Levelled Value :=
  match tag with
  | .null => .ok .null
  | .truth => onLevel level (truthValue text)
  | .whole => onLevel level ((wholeValue text).map .int)
  | .float => onLevel level ((floatValue text).map .float)
  | .binary =>
    match decodeBase64? text with
    | some bytes => .ok (.bytes bytes)
    | none => misplaced level
  | .timestamp => onLevel level (timestampValue mapped text)
  | .text => .ok (.str (String.ofList text))
  | .sequence | .mapping | .set | .pairs => misplaced (level + 1)
  | .merge | .value | .unknown => misplaced level

/-- Whether values of the type are collections, which cannot be keys. -/
def Tag.isCollection : Tag → Bool
  | .sequence | .mapping | .set | .pairs => true
  | _ => false

/-- Whether a key is the value key. -/
def Node.isValueKey : Node → Bool
  | .scalar .value _ | .sequence .value _ | .mapping .value _ => true
  | _ => false

mutual

/-- The text that a node stands for: that of a scalar, or of a mapping with a value key. -/
def Node.text? : Node → Option (List Char)
  | .scalar _ text => some text
  | .mapping _ entries => defaultText? entries
  | _ => none
termination_by structural node => node

/-- The text that the first value key of some entries is for. -/
def defaultText? : List (Node × Node) → Option (List Char)
  | [] => none
  | (key, value) :: rest => if key.isValueKey then value.text? else defaultText? rest
termination_by structural entries => entries

end

/-- The value of a mapping that is given the type of a scalar. -/
def mappingScalar (level : Nat) (tag : Tag) (entries : List (Node × Node)) : Levelled Value :=
  match defaultText? entries with
  | some text => scalarValue level tag true text
  | none => misplaced level

/-- The value of a key on a level. A lone equals sign is a text there. -/
def keyValue (level : Nat) : Node → Levelled Value
  | .scalar .value text => .ok (.str (String.ofList text))
  | .scalar tag text =>
    if tag.isCollection then misplaced level else scalarValue level tag false text
  | .mapping tag entries =>
    if tag.isCollection then misplaced level else mappingScalar level tag entries
  | .halved => .ok .undefined
  | .sequence .. | .badMerge | .cycle => misplaced level

mutual

/-- The value of a node on a level. -/
def Node.value (level : Nat) : Node → Levelled Value
  | .scalar tag text => scalarValue level tag false text
  | .sequence tag items =>
    match tag with
    | .sequence => (itemValues (level + 1) items).map .list
    | .pairs => (pairValues (level + 1) items).map .list
    | .mapping | .set => misplaced (level + 1)
    | _ => misplaced level
  | .mapping tag entries =>
    match tag with
    | .mapping => (entryValues (level + 1) entries).map fun pairs => .dict (Dict.ofPairs pairs)
    | .set =>
      (entryValues (level + 1) entries).map fun pairs =>
        .set ((Dict.ofPairs pairs).map Prod.fst)
    | .sequence | .pairs => misplaced (level + 1)
    | tag => mappingScalar level tag entries
  | .badMerge => misplaced (level + 1)
  | .halved | .cycle => .ok .undefined
termination_by structural node => node

/-- The values of the items of a sequence. -/
def itemValues (level : Nat) : List Node → Levelled (List Value)
  | [] => .ok []
  | item :: rest =>
    (both (item.value level) (itemValues level rest)).map fun (v, vs) => v :: vs
termination_by structural items => items

/-- The values of items that are mappings of one entry each, as pairs. -/
def pairValues (level : Nat) : List Node → Levelled (List Value)
  | [] => .ok []
  | .mapping _ [(key, value)] :: rest =>
    (both (both (key.value level) (value.value level)) (pairValues level rest)).map
      fun ((k, v), vs) => .tuple [k, v] :: vs
  | _ :: _ => misplaced level
termination_by structural items => items

/-- The keys and the values of the entries of a mapping. -/
def entryValues (level : Nat) : List (Node × Node) → Levelled (List (Value × Value))
  | [] => .ok []
  | (key, value) :: rest =>
    (both (both (keyValue level key) (value.value level)) (entryValues level rest)).map
      fun (entry, entries) => entry :: entries
termination_by structural entries => entries

end

/-- The value of the one document of a text. -/
def readDocument (text : List Char) : Except Fault Value := do
  match ← readNode text with
  | none => return .null
  | some node => (node.value 0).mapError Prod.snd

end ShellTemplate.Yaml
