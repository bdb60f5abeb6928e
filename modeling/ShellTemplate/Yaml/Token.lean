import ShellTemplate.Text.Utf8
import ShellTemplate.Text.Digit
import ShellTemplate.Yaml.Scalar

/-!
# Tokens of a YAML text

A text is cut into tokens from left to right. Columns open and close blocks, and a scalar turns out
to be a key only when a colon follows it, so the scanner remembers where a key could have started
and puts the key token in at that place later. Such a key has to stand on one line and may not be
longer than 1024 characters.

* `scan` — the tokens of a text. Where it cannot be scanned, the last token says why.
-/

namespace ShellTemplate.Yaml

/-- A line for the reader itself: the version of the format, a handle that abbreviates tags, or
anything else. -/
inductive Directive where
  | version (major : Nat)
  | handle (name lead : String)
  | reserved

/-- A token. -/
inductive Token where
  | directive (directive : Directive)
  | documentStart
  | documentEnd
  | streamEnd
  | blockSequenceStart
  | blockMappingStart
  | blockEnd
  | flowSequenceStart
  | flowSequenceEnd
  | flowMappingStart
  | flowMappingEnd
  | blockEntry
  | flowEntry
  | key
  | value
  | alias (name : String)
  | anchor (name : String)
  /-- A tag: the rest of its name behind a handle, or its whole name. -/
  | tag (handle : Option String) (name : String)
  | plain (text : List Char)
  | quoted (text : QuotedText)
  /-- The text cannot be scanned any further. -/
  | stop (fault : Fault)

/-! ## Names, tags and directives -/

/-- The characters of the names of anchors, handles and directives. -/
def isWordChar (c : Char) : Bool := c.isAlphanum || c = '-' || c = '_'

/-- The characters of tags. -/
def isTagChar (c : Char) : Bool :=
  c.isAlphanum || "-;/?:@&=+$,_.!~*'()[]%".toList.contains c

/-- What may follow the name of an anchor. -/
def endsAnchor (c : Option Char) : Bool := endsWord c || c.any ("?:,]\x7d%@\x60".toList.contains ·)

/-- The name of an anchor or an alias whose sign stands here. -/
def anchorName (c : Cursor) : Except Fault (String × Cursor) :=
  let (name, c) := c.advance.takeSpan isWordChar
  if !name.isEmpty && endsAnchor c.peek then .ok (String.ofList name, c) else .error .malformed

/-- The bytes written by a run of percent signs with two hexadecimal digits each. -/
def percentBytes : List Char → Except Fault (List UInt8)
  | '%' :: a :: b :: rest =>
    match Json.hexValue? a, Json.hexValue? b with
    | some high, some low => (percentBytes rest).map (UInt8.ofNat (high * 16 + low) :: ·)
    | _, _ => .error .malformed
  | '%' :: _ => .error .malformed
  | _ => .ok []

/-- The characters of a tag, with those written as bytes decoded. -/
def tagText : Nat → List Char → Cursor → Except Fault (List Char × Cursor)
  | 0, _, _ => .error .malformed
  | fuel + 1, text, c =>
    match c.peek with
    | some '%' => do
      let bytes ← percentBytes c.rest
      match Text.decode bytes with
      | .ok more => tagText fuel (text ++ more) (c.forward (3 * bytes.length))
      | .error _ => throw .malformed
    | some d => if isTagChar d then tagText fuel (text ++ [d]) c.advance else .ok (text, c)
    | none => .ok (text, c)

/-- The rest of a tag's name, or all of it; at least one character stands here. -/
def tagName (c : Cursor) : Except Fault (String × Cursor) :=
  if c.peek.any isTagChar then
    (tagText (c.rest.length + 1) [] c).map fun (text, c) => (String.ofList text, c)
  else .error .malformed

/-- The handle that stands here: an exclamation mark, or two with a name between them. -/
def tagHandle (c : Cursor) : Except Fault (String × Cursor) :=
  if c.peek ≠ some '!' then .error .malformed
  else if c.peekAt 1 = some ' ' then .ok ("!", c.advance)
  else
    let (name, after) := c.advance.takeSpan isWordChar
    if after.peek = some '!' then .ok (String.ofList ('!' :: (name ++ ['!'])), after.advance)
    else .error .malformed

/-- Whether a tag has an exclamation mark behind its first one. -/
def hasHandle (c : Cursor) : Bool :=
  (c.rest.drop 1).takeWhile (fun d => !endsItem (some d)) |>.contains '!'

/-- The tag that stands here. -/
def tagToken (c : Cursor) : Except Fault (Token × Cursor) := do
  let (token, c) ←
    if c.peekAt 1 = some '<' then do
      let (name, c) ← tagName (c.forward 2)
      if c.peek = some '>' then pure (Token.tag none name, c.advance) else throw .malformed
    else if endsWord (c.peekAt 1) then pure (Token.tag none "!", c.advance)
    else do
      let (handle, c) ← if hasHandle c then tagHandle c else pure ("!", c.advance)
      let (name, c) ← tagName c
      pure (Token.tag (some handle) name, c)
  if endsItem c.peek then return (token, c) else throw .malformed

/-- A number in a directive. -/
def directiveNumber (c : Cursor) : Except Fault (Nat × Cursor) :=
  let (ds, c) := c.takeSpan Char.isDigit
  if ds.isEmpty then .error .malformed else .ok (Number.ofDigits ds, c)

/-- What a directive of some name says. -/
def directiveValue (name : List Char) (c : Cursor) : Except Fault (Directive × Cursor) := do
  if name = "YAML".toList then
    let (major, c) ← directiveNumber c.skipSpaces
    if c.peek ≠ some '.' then throw .malformed
    let (_, c) ← directiveNumber c.advance
    if endsItem c.peek then return (.version major, c) else throw .malformed
  else if name = "TAG".toList then
    let (handle, c) ← tagHandle c.skipSpaces
    if c.peek ≠ some ' ' then throw .malformed
    let (lead, c) ← tagName c.skipSpaces
    if endsItem c.peek then return (.handle handle lead, c) else throw .malformed
  else return (.reserved, c.skipSpan (!isBreak ·))

/-- The directive that stands here, with its line. -/
def directiveToken (c : Cursor) : Except Fault (Token × Cursor) := do
  let (name, c) := c.advance.takeSpan isWordChar
  if name.isEmpty || !endsItem c.peek then throw .malformed
  let (directive, c) ← directiveValue name c
  let c := c.skipSpaces.skipComment
  if endsLine c.peek then return (.directive directive, c.advance) else throw .malformed

/-! ## The scanner -/

/-- A place where a key could have started: how many tokens came before it, where it stands, and
whether a key has to stand there. -/
structure PendingKey where
  tokensBefore : Nat
  required : Bool
  index : Nat
  line : Nat
  column : Nat

/-- What is known while scanning: the tokens so far in reverse, how many brackets are open, the
column of the innermost block and of those around it, the pending keys by the number of open
brackets, and whether a key may start here. -/
structure Scanner where
  cursor : Cursor
  tokens : List Token
  flow : Nat
  indent : Int
  outer : List Int
  keys : List (Nat × PendingKey)
  keyAllowed : Bool

namespace Scanner

/-- Before anything of a text is scanned. -/
def start (text : List Char) : Scanner := ⟨Cursor.start text, [], 0, -1, [], [], true⟩

/-- The scanner with one more token. -/
def add (token : Token) (s : Scanner) : Scanner := { s with tokens := token :: s.tokens }

/-- The scanner with a token put in behind a number of tokens. -/
def insert (tokensBefore : Nat) (token : Token) (s : Scanner) : Scanner :=
  let behind := s.tokens.length - tokensBefore
  { s with tokens := s.tokens.take behind ++ token :: s.tokens.drop behind }

/-- The scanner over one more character. -/
def advance (s : Scanner) : Scanner := { s with cursor := s.cursor.advance }

/-- Over blanks, comments and line ends. Outside brackets a key may start on a new line. -/
def toNextToken : Nat → Scanner → Scanner
  | 0, s => s
  | fuel + 1, s =>
    match s.cursor.skipSpaces.skipComment.lineBreak? with
    | some (_, c) =>
      toNextToken fuel { s with cursor := c, keyAllowed := s.keyAllowed || s.flow = 0 }
    | none => { s with cursor := s.cursor.skipSpaces.skipComment }

/-- Over a byte order mark at the very start. -/
def skipMark (s : Scanner) : Scanner :=
  if s.cursor.index = 0 ∧ s.cursor.peek = some byteOrderMark then s.advance else s

/-- Whether a pending key can no longer become one. -/
def isStale (s : Scanner) (key : PendingKey) : Bool :=
  key.line ≠ s.cursor.line || 1024 < s.cursor.index - key.index

/-- Without the pending keys that can no longer become keys. -/
def dropStale (s : Scanner) : Except Fault Scanner :=
  if s.keys.any fun (_, key) => s.isStale key && key.required then .error .malformed
  else .ok { s with keys := s.keys.filter fun (_, key) => !s.isStale key }

/-- Without the pending key inside the innermost bracket. -/
def dropKey (s : Scanner) : Except Fault Scanner :=
  if s.keys.any fun (flow, key) => flow = s.flow && key.required then .error .malformed
  else .ok { s with keys := s.keys.filter (·.1 ≠ s.flow) }

/-- With a pending key that starts here, where one may. -/
def saveKey (s : Scanner) : Except Fault Scanner :=
  if s.keyAllowed then do
    let s ← s.dropKey
    let required := s.flow = 0 && s.indent = s.cursor.column
    let c := s.cursor
    let key := ⟨s.tokens.length, required, c.index, c.line, c.column⟩
    return { s with keys := (s.flow, key) :: s.keys }
  else .ok s

/-- Closes the blocks that are indented further than a column. -/
def closeBlocks (column : Int) : List Int → Scanner → Scanner
  | [], s => s
  | outer :: rest, s =>
    if column < s.indent then
      closeBlocks column rest { s.add .blockEnd with indent := outer, outer := rest }
    else s

/-- Closes the blocks that are indented further than a column; inside brackets there are none. -/
def unwind (column : Int) (s : Scanner) : Scanner :=
  if s.flow = 0 then closeBlocks column s.outer s else s

/-- Opens a block at a column with a token put in behind a number of tokens, unless a block with
that column is open already. -/
def openBlock (column tokensBefore : Nat) (token : Token) (s : Scanner) : Scanner :=
  if s.flow = 0 ∧ s.indent < column then
    { s.insert tokensBefore token with indent := column, outer := s.indent :: s.outer }
  else s

/-- Closes everything for the line between two documents. -/
def closeAll (s : Scanner) : Except Fault Scanner := do
  let s ← (s.unwind (-1)).dropKey
  return { s with keyAllowed := false }

/-- The end of the text. -/
def finish (s : Scanner) : Except Fault Scanner := do
  let s ← s.closeAll
  return { s with keys := [] }.add .streamEnd

/-- A directive. -/
def directive (s : Scanner) : Except Fault Scanner := do
  let s ← s.closeAll
  let (token, c) ← directiveToken s.cursor
  return { s with cursor := c }.add token

/-- A line that starts or ends a document. -/
def separator (token : Token) (s : Scanner) : Except Fault Scanner := do
  let s ← s.closeAll
  return { s with cursor := s.cursor.forward 3 }.add token

/-- An opening bracket, which may start a key. -/
def openBracket (token : Token) (s : Scanner) : Except Fault Scanner := do
  let s ← s.saveKey
  return { s with flow := s.flow + 1, keyAllowed := true }.advance.add token

/-- A closing bracket; one must be open. -/
def closeBracket (token : Token) (s : Scanner) : Except Fault Scanner := do
  let s ← s.dropKey
  if s.flow = 0 then throw .malformed
  return { s with flow := s.flow - 1, keyAllowed := false }.advance.add token

/-- A comma between brackets. -/
def flowEntry (s : Scanner) : Except Fault Scanner := do
  let s ← s.dropKey
  return { s with keyAllowed := true }.advance.add .flowEntry

/-- Whether a block may open or go on here. -/
def requireKeyAllowed (s : Scanner) : Except Fault Unit :=
  if s.flow = 0 && !s.keyAllowed then .error .malformed else .ok ()

/-- The dash before an item of a block. -/
def blockEntry (s : Scanner) : Except Fault Scanner := do
  s.requireKeyAllowed
  let s ← (s.openBlock s.cursor.column s.tokens.length .blockSequenceStart).dropKey
  return { s with keyAllowed := true }.advance.add .blockEntry

/-- The question mark before a key. -/
def key (s : Scanner) : Except Fault Scanner := do
  s.requireKeyAllowed
  let s ← (s.openBlock s.cursor.column s.tokens.length .blockMappingStart).dropKey
  return { s with keyAllowed := s.flow = 0 }.advance.add .key

/-- The colon before a value. If a key was pending, it has turned out to be one. -/
def value (s : Scanner) : Except Fault Scanner := do
  match s.keys.lookup s.flow with
  | some pending =>
    let s := { s with keys := s.keys.filter (·.1 ≠ s.flow) }
    let s := (s.insert pending.tokensBefore .key).openBlock pending.column pending.tokensBefore
      .blockMappingStart
    return { s with keyAllowed := false }.advance.add .value
  | none =>
    s.requireKeyAllowed
    let s ← (s.openBlock s.cursor.column s.tokens.length .blockMappingStart).dropKey
    return { s with keyAllowed := s.flow = 0 }.advance.add .value

/-- A token that may start a key and behind which none may start on the same line. -/
def keyLike (read : Cursor → Except Fault (Token × Cursor)) (s : Scanner) :
    Except Fault Scanner := do
  let s ← s.saveKey
  let (token, c) ← read s.cursor
  return { s with cursor := c, keyAllowed := false }.add token

/-- A plain scalar; a key may start behind it if it ended its line. -/
def plain (s : Scanner) : Except Fault Scanner := do
  let s ← s.saveKey
  let (text, gap) := plainScalar (s.flow ≠ 0) (s.indent + 1) s.cursor
  return { s with cursor := gap.next, keyAllowed := gap.broke }.add (.plain text)

/-- A block scalar, behind which a key may start. -/
def block (folds : Bool) (s : Scanner) : Except Fault Scanner := do
  let s ← s.dropKey
  let (text, c) ← blockScalar folds s.indent s.cursor
  return { s with cursor := c, keyAllowed := true }.add (.quoted ⟨text, false⟩)

/-- Whether a plain scalar may start here: with any character that has no meaning of its own, or
with a dash, a question mark or a colon that a word follows. -/
def startsPlain (flow : Nat) (c : Char) (next : Option Char) : Bool :=
  (!endsWord (some c) && !"-?:,[]\x7b\x7d#&*!|>'\"%@\x60".toList.contains c) ||
    (!endsWord next && (c = '-' || (flow = 0 && (c = '?' || c = ':'))))

/-- The token that starts with a character. -/
def token (c : Char) (s : Scanner) : Except Fault Scanner :=
  let next := s.cursor.peekAt 1
  let lineStart := s.cursor.column = 0
  let alone := endsWord next
  if c = '%' ∧ lineStart then s.directive
  else if lineStart ∧ s.cursor.atMark ['-', '-', '-'] then s.separator .documentStart
  else if lineStart ∧ s.cursor.atMark ['.', '.', '.'] then s.separator .documentEnd
  else if c = '[' then s.openBracket .flowSequenceStart
  else if c = '{' then s.openBracket .flowMappingStart
  else if c = ']' then s.closeBracket .flowSequenceEnd
  else if c = '}' then s.closeBracket .flowMappingEnd
  else if c = ',' then s.flowEntry
  else if c = '-' ∧ alone then s.blockEntry
  else if c = '?' ∧ (alone ∨ s.flow ≠ 0) then s.key
  else if c = ':' ∧ (alone ∨ s.flow ≠ 0) then s.value
  else if c = '*' then s.keyLike fun c => (anchorName c).map fun (name, c) => (.alias name, c)
  else if c = '&' then s.keyLike fun c => (anchorName c).map fun (name, c) => (.anchor name, c)
  else if c = '!' then s.keyLike tagToken
  else if c = '|' ∧ s.flow = 0 then s.block false
  else if c = '>' ∧ s.flow = 0 then s.block true
  else if c = '\'' ∨ c = '"' then
    s.keyLike fun start => (quotedScalar (c = '"') start).map fun (text, c) => (.quoted text, c)
  else if startsPlain s.flow c next then s.plain
  else .error .malformed

/-- The next token, and whether it is the last. -/
def step (s : Scanner) : Except Fault (Bool × Scanner) := do
  let s ← (toNextToken (s.cursor.rest.length + 1) s.skipMark).dropStale
  let s := s.unwind s.cursor.column
  match s.cursor.peek with
  | none => return (true, ← s.finish)
  | some c => return (false, ← s.token c)

/-- The tokens of the rest of a text behind those so far. -/
def run : Nat → Scanner → List Token
  | 0, s => s.tokens.reverse
  | fuel + 1, s =>
    match s.step with
    | .error fault => (s.add (.stop fault)).tokens.reverse
    | .ok (true, s) => s.tokens.reverse
    | .ok (false, s) => run fuel s

end Scanner

/-- The tokens of a text. Each takes up a character, so the length of the text bounds them. -/
def scan (text : List Char) : List Token := (Scanner.start text).run (text.length + 2)

end ShellTemplate.Yaml
