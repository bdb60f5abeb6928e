import ShellTemplate.Template.Reader

/-!
# The grammar of templates

Which texts are templates, and of which parts, said without a reader: a template is a row of words
with blanks between them, and each form of a word has a rule.

* `WordOf`, `TemplateOf` — a text is a word of a part, a template of some parts.
-/

namespace ShellTemplate.Template

open Text Number

/-- What stands for itself in a bare word. -/
def isPlain (c : Char) : Bool := !isBlank c && !(['{', '}', '\'', '"'].contains c)

/-- A bare text and what it means: a doubled brace is a brace, a plain character is itself. -/
inductive BareOf : List Char → List Char → Prop where
  | nil : BareOf [] []
  | brace {c : Char} {source text : List Char} (brace : c = '{' ∨ c = '}')
    (rest : BareOf source text) : BareOf (c :: c :: source) (c :: text)
  | plain {c : Char} {source text : List Char} (plain : isPlain c = true)
    (rest : BareOf source text) : BareOf (c :: source) (c :: text)

/-- What stands between double quotes and what it means: an escaped double quote or backslash is
that character, and any other backslash is itself. -/
inductive DoubleQuotedOf : List Char → List Char → Prop where
  | nil : DoubleQuotedOf [] []
  | escape {c : Char} {source text : List Char} (special : c = '"' ∨ c = '\\')
    (rest : DoubleQuotedOf source text) : DoubleQuotedOf ('\\' :: c :: source) (c :: text)
  | backslash {c : Char} {source text : List Char} (other : c ≠ '"' ∧ c ≠ '\\')
    (rest : DoubleQuotedOf (c :: source) text) : DoubleQuotedOf ('\\' :: c :: source) ('\\' :: text)
  | plain {c : Char} {source text : List Char} (other : c ≠ '"' ∧ c ≠ '\\')
    (rest : DoubleQuotedOf source text) : DoubleQuotedOf (c :: source) (c :: text)

/-- A run of one ASCII digit or more. -/
def IsDigits (cs : List Char) : Prop := cs ≠ [] ∧ ∀ c ∈ cs, c.isDigit = true

/-- A text that looks like a number: an optional minus, digits, and optionally a point and
digits. -/
inductive LooksLikeNumber : List Char → Prop where
  | whole {minus ds : List Char} (sign : minus = [] ∨ minus = ['-']) (digits : IsDigits ds) :
    LooksLikeNumber (minus ++ ds)
  | fraction {minus ds fs : List Char} (sign : minus = [] ∨ minus = ['-']) (digits : IsDigits ds)
    (fraction : IsDigits fs) : LooksLikeNumber (minus ++ ds ++ '.' :: fs)

/-- A reference in a placeholder: a name, or the digits of a position. -/
inductive RefOf : List Char → Ref → Prop where
  | name {c : Char} {rest : List Char} (start : isNameStart c = true)
    (more : ∀ d ∈ rest, isNameChar d = true) : RefOf (c :: rest) (.name (String.ofList (c :: rest)))
  | position {ds : List Char} (digits : IsDigits ds) : RefOf ds (.position (ofDigits ds))

/-- The markers of a placeholder. -/
def markers (verbatim list : Bool) : List Char :=
  (if verbatim then ['!'] else []) ++ (if list then ['*'] else [])

/-- A word and the part that it stands for. -/
inductive WordOf : List Char → Part → Prop where
  | placeholder {source : List Char} {ref : Ref} (verbatim list : Bool) (named : RefOf source ref) :
    WordOf ('{' :: (markers verbatim list ++ source ++ ['}'])) (.placeholder ⟨verbatim, list, ref⟩)
  | apostrophes {text : List Char} (free : '\'' ∉ text) :
    WordOf ('\'' :: (text ++ ['\''])) (.literal (.text (String.ofList text)))
  | doubleQuotes {source text : List Char} (inside : DoubleQuotedOf source text) :
    WordOf ('"' :: (source ++ ['"'])) (.literal (.text (String.ofList text)))
  | number {source text : List Char} (bare : BareOf source text) (number : LooksLikeNumber text) :
    WordOf source (.literal (.number (String.ofList text)))
  | identifier {source text : List Char} (bare : BareOf source text) (some : source ≠ [])
    (other : ¬ LooksLikeNumber text) : WordOf source (.literal (.identifier (String.ofList text)))

/-- A template and its parts: blanks, a word, and a template that is empty or starts with a
blank. -/
inductive TemplateOf : List Char → List Part → Prop where
  | nil {gap : List Char} (blank : ∀ c ∈ gap, isBlank c = true) : TemplateOf gap []
  | cons {gap source rest : List Char} {part : Part} {parts : List Part}
    (blank : ∀ c ∈ gap, isBlank c = true) (word : WordOf source part)
    (apart : ∀ c ∈ rest.head?, isBlank c = true) (more : TemplateOf rest parts) :
    TemplateOf (gap ++ source ++ rest) (part :: parts)

end ShellTemplate.Template
