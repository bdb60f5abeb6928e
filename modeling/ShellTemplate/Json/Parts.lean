import ShellTemplate.Json.Scan
import ShellTemplate.Checked

/-!
# The JSON form of parts

A part is an object with a `kind` and one more member: a literal has its atom, a placeholder its
reference; an atom is an object of the same form. Members may come in any order, members of other
names are passed over, and of repeated members the last counts.

A text is read in one pass. What is refused first is the answer: a value of the wrong type is
refused where it starts, and a malformed text only where it is reached. The kind of an object is
looked for ahead of its other members.

* `writeParts` — the JSON text of a list of parts.
* `readParts` — the parts of a JSON text.
-/

namespace ShellTemplate.Json

/-! ## Writing -/

/-- An object of a kind with one more member. -/
def writeRecord (kind field : String) (value : List Char) : List Char :=
  "\x7b\"kind\":".toList ++ quoted kind.toList ++ ',' :: quoted field.toList ++ ':' :: value ++
    ['}']

/-- The kinds of atoms. -/
inductive AtomKind where
  | identifier
  | text
  | number
deriving DecidableEq, Repr

/-- The name of a kind of atom. -/
def AtomKind.name : AtomKind → String
  | identifier => "identifier"
  | text => "text"
  | number => "number"

/-- The member that holds the text of an atom. -/
def AtomKind.field : AtomKind → String
  | identifier => "name"
  | text => "value"
  | number => "text"

/-- The kind of an atom. -/
def AtomKind.of : Atom → AtomKind
  | .identifier _ => .identifier
  | .text _ => .text
  | .number _ => .number

/-- The atom of a kind over a value. -/
def AtomKind.build : AtomKind → Value → Except Error Atom
  | identifier => Atom.identifierOf
  | text => Atom.textOf
  | number => Atom.numberOf

/-- The kinds of parts. -/
inductive PartKind where
  | literal
  | placeholder (verbatim list : Bool)
deriving DecidableEq, Repr

/-- The name of a kind of part. -/
def PartKind.name : PartKind → String
  | literal => "literal"
  | placeholder false false => "interpolated"
  | placeholder false true => "interpolated-list"
  | placeholder true false => "escaped"
  | placeholder true true => "escaped-list"

/-- The member that holds the content of a part. -/
def PartKind.field : PartKind → String
  | literal => "atom"
  | placeholder _ _ => "ref"

/-- The part of a kind over a value. -/
def PartKind.build : PartKind → Value → Except Error Part
  | literal => Part.literalOf
  | placeholder verbatim list => Part.placeholderOf verbatim list

/-- The JSON text of an atom. -/
def writeAtom (a : Atom) : List Char :=
  writeRecord (AtomKind.of a).name (AtomKind.of a).field (quoted a.content.toList)

/-- The JSON text of a reference. -/
def writeRef : Ref → List Char
  | .name s => quoted s.toList
  | .position n => Number.digits n

/-- The JSON text of a part. -/
def writePart : Part → List Char
  | .literal a => writeRecord PartKind.literal.name PartKind.literal.field (writeAtom a)
  | .placeholder p =>
    let kind := PartKind.placeholder p.verbatim p.list
    writeRecord kind.name kind.field (writeRef p.ref)

/-- Texts with a comma between them. -/
def commas (texts : List (List Char)) : List Char := List.intercalate [','] texts

/-- The JSON text of a list of parts. -/
def writeParts (parts : List Part) : String :=
  String.ofList ('[' :: commas (parts.map writePart) ++ [']'])

/-! ## Refusals -/

/-- One step of the way to a value. -/
inductive Step where
  | index (n : Nat)
  | field (name : String)
deriving DecidableEq, Repr

/-- Why a document is refused. All but the first are about its content. -/
inductive Refusal where
  | malformed
  | mismatch (expected : String) (found : Option String)
  | unknownKind (name : String)
  | missing (field : String)
  | rejected (error : Error)
  | integerTooLong

/-- A refusal with the way to the value that is refused, from the inside out. -/
structure Problem where
  refusal : Refusal
  path : List Step

/-- The wording of a refusal. -/
def Refusal.message : Refusal → String
  | malformed => "malformed"
  | mismatch expected none => "Expected `" ++ expected ++ "`"
  | mismatch expected (some found) => "Expected `" ++ expected ++ "`, got `" ++ found ++ "`"
  | unknownKind name => "Invalid value " ++ Text.quotation name
  | missing field => "Object missing required field `" ++ field ++ "`"
  | rejected error => error.message
  | integerTooLong => "Integer value out of range"

/-- The wording of a step. -/
def Step.message : Step → String
  | index n => "[" ++ integerText n ++ "]"
  | field name => "." ++ name

/-- The wording of a problem: the refusal and the way to the value. -/
def Problem.message (p : Problem) : String :=
  p.refusal.message ++
    (if p.path.isEmpty then ""
      else " - at `$" ++ String.join (p.path.reverse.map Step.message) ++ "`")

/-- A refusal on the way to a value. -/
def refuse {α : Type} (path : List Step) (refusal : Refusal) : Except Problem α :=
  .error ⟨refusal, path⟩

/-- What has to be well-formed JSON. -/
def formed {α : Type} (path : List Step) : Option α → Except Problem α
  | some a => .ok a
  | none => refuse path .malformed

/-! ## Reading -/

/-- The refusal of a value for its type, which its first character tells: strings, arrays and
objects are refused where they start, words and numbers after they are read. -/
def mismatch (expected : String) (cs : List Char) : Refusal :=
  let found (read : Option (List Char)) (type : String) : Refusal :=
    if read.isSome then .mismatch expected (some type) else .malformed
  match cs with
  | [] => .malformed
  | c :: _ =>
    if c = '"' then .mismatch expected (some "str")
    else if c = '[' then .mismatch expected (some "array")
    else if c = '{' then .mismatch expected (some "object")
    else if c = 'n' then found (keyword? "null".toList cs) "null"
    else if c = 't' then found (keyword? "true".toList cs) "bool"
    else if c = 'f' then found (keyword? "false".toList cs) "bool"
    else match number? cs with
      | some (n, rest) => found (some rest) (if n.whole then "int" else "float")
      | none => .malformed

/-- Reads a string. -/
def readText (path : List Step) (cs : List Char) : Except Problem (Value × List Char) :=
  match skipSpace cs with
  | '"' :: rest =>
    (formed path (readBody [] rest)).map fun (s, rest) => (.str (String.ofList s), rest)
  | cs => refuse path (mismatch "str" cs)

/-- Reads a name or a position. -/
def readRef (path : List Step) (cs : List Char) : Except Problem (Value × List Char) :=
  match skipSpace cs with
  | '"' :: rest =>
    (formed path (readBody [] rest)).map fun (s, rest) => (.str (String.ofList s), rest)
  | cs =>
    match number? cs with
    | some (⟨text, true⟩, rest) =>
      if maxDigits < text.length then refuse path .integerTooLong
      else .ok (.int (wholeNumber text), rest)
    | _ => refuse path (mismatch "int | str" cs)

/-- Reads the name of a kind. What is no string is passed over before it is refused. -/
def readKind (path : List Step) (cs : List Char) : Except Problem (String × List Char) :=
  match skipSpace cs with
  | '"' :: rest => (formed path (readBody [] rest)).map fun (s, rest) => (String.ofList s, rest)
  | cs => do
    let _ ← formed path (skip cs)
    refuse path (.mismatch "str" none)

/-- The objects of one type: the kinds with their names, the member of each kind, how the value of
that member is read, and what is built from it. -/
structure Schema (κ α : Type) where
  kinds : List κ
  name : κ → String
  field : κ → String
  read : κ → List Step → List Char → Except Problem (Value × List Char)
  build : κ → Value → Except Error α

/-- The kind of a name. -/
def Schema.kind? {κ α : Type} (s : Schema κ α) (name : String) : Option κ :=
  s.kinds.find? fun k => s.name k = name

/-- Reads the name of a kind that the schema has. -/
def Schema.readKind {κ α : Type} (s : Schema κ α) (path : List Step) (cs : List Char) :
    Except Problem (κ × List Char) := do
  let path := .field "kind" :: path
  let (name, rest) ← Json.readKind path cs
  match s.kind? name with
  | some k => .ok (k, rest)
  | none => refuse path (.unknownKind name)

/-- Looks for the kind among the members of an object. If it is the first one, the members behind it
are still to be read; otherwise all of them are. -/
def Schema.findKind {κ α : Type} (s : Schema κ α) (path : List Step) :
    Nat → Bool → List Char → Except Problem (κ × Option (List Char))
  | 0, _, _ => refuse path .malformed
  | fuel + 1, first, cs => do
    match ← formed path (member? first cs) with
    | .close _ => refuse path (.missing "kind")
    | .member name rest =>
      if name = "kind".toList then
        let (k, rest) ← s.readKind path rest
        return (k, if first then some rest else none)
      else
        let rest ← formed path (skip rest)
        s.findKind path fuel false rest

/-- Reads the members of an object of a kind. The value read last for its member is kept; another
kind is refused. -/
def Schema.readMembers {κ α : Type} (s : Schema κ α) (k : κ) (path : List Step) :
    Nat → Bool → Option Value → List Char → Except Problem (α × List Char)
  | 0, _, _, _ => refuse path .malformed
  | fuel + 1, first, value, cs => do
    match ← formed path (member? first cs) with
    | .close rest =>
      match value with
      | none => refuse path (.missing (s.field k))
      | some v =>
        match s.build k v with
        | .ok a => .ok (a, rest)
        | .error e => refuse path (.rejected e)
    | .member name rest =>
      if name = (s.field k).toList then
        let (v, rest) ← s.read k (.field (s.field k) :: path) rest
        s.readMembers k path fuel false (some v) rest
      else if name = "kind".toList then
        let (other, rest) ← Json.readKind (.field "kind" :: path) rest
        if other = s.name k then s.readMembers k path fuel false value rest
        else refuse (.field "kind" :: path) (.unknownKind other)
      else
        let rest ← formed path (skip rest)
        s.readMembers k path fuel false value rest

/-- Reads an object. -/
def Schema.readObject {κ α : Type} (s : Schema κ α) (path : List Step) (cs : List Char) :
    Except Problem (α × List Char) :=
  match skipSpace cs with
  | '{' :: rest => do
    let fuel := rest.length + 1
    match ← s.findKind path fuel true rest with
    | (k, some behind) => s.readMembers k path fuel false none behind
    | (k, none) => s.readMembers k path fuel true none rest
  | cs => refuse path (mismatch "object" cs)

/-- The objects of atoms. -/
def atomSchema : Schema AtomKind Atom where
  kinds := [.identifier, .text, .number]
  name := AtomKind.name
  field := AtomKind.field
  read := fun _ => readText
  build := AtomKind.build

/-- Reads an atom. -/
def readAtom (path : List Step) (cs : List Char) : Except Problem (Value × List Char) :=
  (atomSchema.readObject path cs).map fun (a, rest) => (.atom a, rest)

/-- The objects of parts. -/
def partSchema : Schema PartKind Part where
  kinds := [.literal, .placeholder false false, .placeholder false true, .placeholder true false,
    .placeholder true true]
  name := PartKind.name
  field := PartKind.field
  read
    | .literal => readAtom
    | .placeholder _ _ => readRef
  build := PartKind.build

/-- Reads the elements of an array of parts from an index on. -/
def readElements : Nat → Nat → Bool → List Char → Except Problem (List Part × List Char)
  | 0, _, _, _ => refuse [] .malformed
  | fuel + 1, index, first, cs => do
    match ← formed [] (element? first cs) with
    | .close rest => .ok ([], rest)
    | .element rest =>
      let (part, rest) ← partSchema.readObject [.index index] rest
      let (parts, rest) ← readElements fuel (index + 1) false rest
      return (part :: parts, rest)

/-- The parts of a JSON text: one array with nothing but white space around it. -/
def readParts (text : String) : Except Problem (List Part) :=
  match skipSpace text.toList with
  | '[' :: rest => do
    let (parts, rest) ← readElements (rest.length + 1) 0 true rest
    if (skipSpace rest).isEmpty then .ok parts else refuse [] .malformed
  | cs => refuse [] (mismatch "array" cs)

end ShellTemplate.Json
