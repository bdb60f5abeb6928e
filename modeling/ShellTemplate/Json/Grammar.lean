import Mathlib.Data.List.Forall2
import ShellTemplate.Json.Parts
import ShellTemplate.Template.Grammar

/-!
# The grammar of documents

Which texts are JSON documents of some parts, said without a reader. One list of parts has many
documents: white space may stand between tokens, the members of an object stand in any order with
members of other names among them, and each character of a string is written as itself or as any of
its escapes.

* `StringOf` — a text is a string.
* `ValueOf` — a text is a value whose numbers are of some form.
* `DocumentOf` — a text is a document of some parts.
-/

namespace ShellTemplate.Json

open Number
open Template (IsDigits)

/-! ## Strings -/

/-- A number as four hexadecimal digits, in letters of either case. -/
def IsHex (n : Nat) (ds : List Char) : Prop :=
  ds.length = 4 ∧ ∃ values, ds.mapM hexValue? = some values ∧
    values.foldl (fun n d => n * 16 + d) 0 = n

/-- The units of a character in UTF-16: one, or the two halves of a surrogate pair. -/
def units (c : Char) : List Nat :=
  if c.toNat < 0x10000 then [c.toNat]
  else [0xD800 + (c.toNat - 0x10000) / 0x400, 0xDC00 + (c.toNat - 0x10000) % 0x400]

/-- The letters of the short escapes, with the characters that they stand for. -/
def shortEscapes : List (Char × Char) :=
  [('"', '"'), ('\\', '\\'), ('/', '/'), ('b', Char.ofNat 0x08), ('f', Char.ofNat 0x0C),
    ('n', '\n'), ('r', '\r'), ('t', '\t')]

/-- The ways to write a character of a string: as itself, with a letter behind a backslash, or by
its units. -/
inductive CharOf : List Char → Char → Prop where
  | plain {c : Char} (other : c ≠ '"' ∧ c ≠ '\\') (visible : 0x20 ≤ c.toNat) : CharOf [c] c
  | short {letter c : Char} (escape : (letter, c) ∈ shortEscapes) : CharOf ['\\', letter] c
  | unit {c : Char} {n : Nat} {ds : List Char} (one : units c = [n]) (hex : IsHex n ds) :
    CharOf ('\\' :: 'u' :: ds) c
  | pair {c : Char} {high low : Nat} {ds es : List Char} (two : units c = [high, low])
    (first : IsHex high ds) (second : IsHex low es) :
    CharOf ('\\' :: 'u' :: (ds ++ '\\' :: 'u' :: es)) c

/-- What stands between the quotes of a string, and what it means. -/
inductive BodyOf : List Char → List Char → Prop where
  | nil : BodyOf [] []
  | cons {written source text : List Char} {c : Char} (first : CharOf written c)
    (rest : BodyOf source text) : BodyOf (written ++ source) (c :: text)

/-- A string and what it means. -/
inductive StringOf : List Char → List Char → Prop where
  | quoted {source text : List Char} (body : BodyOf source text) :
    StringOf ('"' :: (source ++ ['"'])) text

/-! ## Numbers -/

/-- Digits without a zero in front, unless zero stands alone. -/
structure IsWholePart (ds : List Char) : Prop where
  digits : IsDigits ds
  lead : ds.head? = some '0' → ds.length = 1

/-- A whole number of no more than eighteen digits, with an optional minus. -/
inductive IsShortWhole : List Char → Prop where
  | mk {minus ds : List Char} (sign : minus = [] ∨ minus = ['-']) (whole : IsWholePart ds)
    (short : ds.length ≤ 18) : IsShortWhole (minus ++ ds)

/-- Nothing, or a point with digits behind it. -/
def IsFraction (cs : List Char) : Prop := cs = [] ∨ ∃ ds, cs = '.' :: ds ∧ IsDigits ds

/-- Nothing, or the letter of an exponent with an optional sign and digits behind it. -/
def IsExponent (cs : List Char) : Prop :=
  cs = [] ∨ ∃ e sign ds, cs = e :: (sign ++ ds) ∧ (e = 'e' ∨ e = 'E') ∧
    (sign = [] ∨ sign = ['+'] ∨ sign = ['-']) ∧ IsDigits ds

/-- A number of the format. -/
inductive IsNumber : List Char → Prop where
  | mk {minus ds fraction exponent : List Char} (sign : minus = [] ∨ minus = ['-'])
    (whole : IsWholePart ds) (fraction_form : IsFraction fraction)
    (exponent_form : IsExponent exponent) : IsNumber (minus ++ ds ++ (fraction ++ exponent))

/-! ## Values -/

/-- White space between two tokens, or none. -/
structure Gap where
  chars : List Char
  space : ∀ c ∈ chars, isSpace c = true

/-- No white space. -/
def Gap.none : Gap := ⟨[], List.forall_mem_nil _⟩

/-- A text with white space around it. -/
structure Spaced where
  before : Gap
  source : List Char
  after : Gap

/-- The text with the white space. -/
def Spaced.text (s : Spaced) : List Char := s.before.chars ++ s.source ++ s.after.chars

/-- A member of an object: its name and its value. -/
structure MemberText where
  name : Spaced
  value : Spaced

/-- The text of a member. -/
def MemberText.text (m : MemberText) : List Char := m.name.text ++ ':' :: m.value.text

/-- Texts with commas between them in brackets. White space may stand between the brackets where
there is no text. -/
def row (opening : Char) (lead : Gap) (texts : List (List Char)) (closing : Char) : List Char :=
  opening :: (lead.chars ++ commas texts ++ [closing])

/-- A value: one of the three words, a number of some form, a string, an array or an object. -/
inductive ValueOf (Form : List Char → Prop) : List Char → Prop where
  | word {word : String} (known : word ∈ ["null", "true", "false"]) : ValueOf Form word.toList
  | number {source : List Char} (form : Form source) : ValueOf Form source
  | string {source text : List Char} (string : StringOf source text) : ValueOf Form source
  | array {items : List Spaced} (lead : Gap) (each : ∀ item ∈ items, ValueOf Form item.source) :
    ValueOf Form (row '[' lead (items.map Spaced.text) ']')
  | object {members : List MemberText} (lead : Gap)
    (named : ∀ m ∈ members, ∃ name, StringOf m.name.source name)
    (each : ∀ m ∈ members, ValueOf Form m.value.source) :
    ValueOf Form (row '{' lead (members.map MemberText.text) '}')

/-! ## Documents of parts -/

/-- An object of a kind with one more member of some content. The members stand in any order, and
members of other names may stand among them. -/
inductive RecordOf (kind field : String) (Content : List Char → Prop) : List Char → Prop where
  | object {members others : List MemberText} {tag content : MemberText} (lead : Gap)
    (order : members.Perm (tag :: content :: others))
    (tagName : StringOf tag.name.source "kind".toList)
    (tagValue : StringOf tag.value.source kind.toList)
    (contentName : StringOf content.name.source field.toList)
    (contentValue : Content content.value.source)
    (otherNames : ∀ m ∈ others, ∃ name,
      StringOf m.name.source name ∧ name ≠ "kind".toList ∧ name ≠ field.toList)
    (otherValues : ∀ m ∈ others, ValueOf IsShortWhole m.value.source) :
    RecordOf kind field Content (row '{' lead (members.map MemberText.text) '}')

/-- A text is an object of an atom. -/
def AtomOf (a : Atom) : List Char → Prop :=
  RecordOf (AtomKind.of a).name (AtomKind.of a).field fun source => StringOf source a.content.toList

/-- A text is a reference: a string for a name, its digits for a position. -/
def RefOf : Ref → List Char → Prop
  | .name s => fun source => StringOf source s.toList
  | .position n => fun source => source = digits n

/-- A text is an object of a part. -/
def PartOf : Part → List Char → Prop
  | .literal a => RecordOf PartKind.literal.name PartKind.literal.field (AtomOf a)
  | .placeholder p =>
    let kind := PartKind.placeholder p.verbatim p.list
    RecordOf kind.name kind.field (RefOf p.ref)

/-- The text of an array of some items, with white space around it. -/
def arrayText (before lead : Gap) (items : List Spaced) (after : Gap) : List Char :=
  before.chars ++ (row '[' lead (items.map Spaced.text) ']' ++ after.chars)

/-- A text is a document of some parts: an array with an object of each of them. -/
inductive DocumentOf (parts : List Part) : List Char → Prop where
  | array {items : List Spaced} (before lead after : Gap)
    (each : List.Forall₂ (fun part item => PartOf part item.source) parts items) :
    DocumentOf parts (arrayText before lead items after)

end ShellTemplate.Json
