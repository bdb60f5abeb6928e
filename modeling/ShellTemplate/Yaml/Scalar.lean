import ShellTemplate.Error
import ShellTemplate.Json.Text
import ShellTemplate.Yaml.Cursor

/-!
# Scalars of a YAML text

The four ways to write a text: plain, between apostrophes, between double quotes with escapes, and
as a block of lines. A line break within a plain or quoted scalar is folded: a single one stands for
a space, of several the first is dropped.

Loops over a text are bounded by its length, since each round takes up a character.

* `plainScalar`, `quotedScalar`, `blockScalar` — the scalar at a cursor.
-/

namespace ShellTemplate.Yaml

/-- Why a text cannot be read: it is no YAML, or a scalar in it has no value. -/
inductive Fault where
  | malformed
  | scalar (error : Error)

/-- What a line break and those after it stand for. -/
def folded (first : Char) (more : List Char) : List Char :=
  if first ≠ '\n' then first :: more else if more.isEmpty then [' '] else more

/-! ## Plain scalars -/

/-- Whether a colon before this character ends a key. -/
def endsKey (flow : Bool) (next : Option Char) : Bool :=
  endsWord next || (flow && next.any (",[]\x7b\x7d".toList.contains ·))

/-- The characters that a plain scalar goes on with. -/
def plainChunk (flow : Bool) : List Char → List Char
  | [] => []
  | c :: rest =>
    if endsWord (some c) || (c = ':' && endsKey flow rest.head?) ||
        (flow && ",?[]\x7b\x7d".toList.contains c) then []
    else c :: plainChunk flow rest

/-- What stands between two chunks of a plain scalar: the text it stands for, whether a line ended
in it, and the place behind it. -/
structure Gap where
  text : List Char
  broke : Bool
  next : Cursor

/-- The line breaks that follow the first one, in reverse; `none` where a document ends. -/
def gapBreaks : Nat → List Char → Cursor → Option (List Char) × Cursor
  | 0, breaks, c => (some breaks.reverse, c)
  | fuel + 1, breaks, c =>
    let c := c.skipSpaces
    match c.lineBreak? with
    | none => (some breaks.reverse, c)
    | some (b, c) => if c.atSeparator then (none, c) else gapBreaks fuel (b :: breaks) c

/-- What stands behind a chunk of a plain scalar. -/
def plainGap (c : Cursor) : Gap :=
  let (blanks, c) := c.takeSpan (· = ' ')
  match c.lineBreak? with
  | none => ⟨blanks, false, c⟩
  | some (first, c) =>
    if c.atSeparator then ⟨[], true, c⟩
    else
      match gapBreaks (c.rest.length + 1) [] c with
      | (some more, c) => ⟨folded first more, true, c⟩
      | (none, c) => ⟨[], true, c⟩

/-- The rest of a plain scalar, given the gap before it and the text so far. -/
def plainFrom (flow : Bool) (indent : Int) : Nat → List Char → Gap → List Char × Gap
  | 0, text, gap => (text, gap)
  | fuel + 1, text, gap =>
    let chunk := plainChunk flow gap.next.rest
    if gap.next.peek = some '#' || chunk.isEmpty then (text, gap)
    else
      let next := plainGap (gap.next.forward chunk.length)
      let text := text ++ gap.text ++ chunk
      if next.text.isEmpty || (!flow && next.next.column < indent) then (text, next)
      else plainFrom flow indent fuel text next

/-- The plain scalar that stands here, and the gap behind it. -/
def plainScalar (flow : Bool) (indent : Int) (c : Cursor) : List Char × Gap :=
  plainFrom flow indent (c.rest.length + 1) [] ⟨[], false, c⟩

/-! ## Quoted scalars -/

/-- The text of a quoted scalar. A text that holds half of a surrogate pair is none. -/
structure QuotedText where
  text : List Char
  halved : Bool

/-- The character that an escape of one letter stands for. -/
def letterEscape? (c : Char) : Option Char :=
  if c = '0' then some (Char.ofNat 0)
  else if c = 'a' then some (Char.ofNat 0x07)
  else if c = 'b' then some (Char.ofNat 0x08)
  else if c = 't' ∨ c = '\t' then some '\t'
  else if c = 'n' then some '\n'
  else if c = 'v' then some (Char.ofNat 0x0B)
  else if c = 'f' then some (Char.ofNat 0x0C)
  else if c = 'r' then some '\r'
  else if c = 'e' then some (Char.ofNat 0x1B)
  else if c = ' ' ∨ c = '"' ∨ c = '\\' ∨ c = '/' then some c
  else if c = 'N' then some (Char.ofNat 0x85)
  else if c = '_' then some (Char.ofNat 0xA0)
  else if c = 'L' then some (Char.ofNat 0x2028)
  else if c = 'P' then some (Char.ofNat 0x2029)
  else none

/-- How many hexadecimal digits follow a letter that announces a code point. -/
def codeWidth? (c : Char) : Option Nat :=
  if c = 'x' then some 2 else if c = 'u' then some 4 else if c = 'U' then some 8 else none

/-- The code point written by so many hexadecimal digits. -/
def codePoint (width : Nat) (cs : List Char) : Except Fault Nat :=
  match (cs.take width).mapM Json.hexValue? with
  | none => .error .malformed
  | some ds =>
    let n := ds.foldl (fun n d => n * 16 + d) 0
    if ds.length < width then .error .malformed
    else if 0x10FFFF < n then .error (.scalar (.scalar .codePoint))
    else .ok n

/-- The line breaks within a quoted scalar behind its first one, and the blanks after them. No
document may start or end there. -/
def quotedBreaks : Nat → List Char → Cursor → Except Fault (List Char × Cursor)
  | 0, _, _ => .error .malformed
  | fuel + 1, breaks, c =>
    if c.atSeparator then .error .malformed
    else
      let c := c.skipSpan isInline
      match c.lineBreak? with
      | none => .ok (breaks.reverse, c)
      | some (b, c) => quotedBreaks fuel (b :: breaks) c

/-- The rest of a quoted scalar, behind the text so far. -/
def quotedFrom (double : Bool) : Nat → QuotedText → Cursor → Except Fault (QuotedText × Cursor)
  | 0, _, _ => .error .malformed
  | fuel + 1, q, c =>
    let add (text : List Char) : QuotedText := { q with text := q.text ++ text }
    match c.rest with
    | [] => .error .malformed
    | d :: rest =>
      if isInline d || isBreak d then
        let (blanks, c) := c.takeSpan isInline
        match c.lineBreak? with
        | none => quotedFrom double fuel (add blanks) c
        | some (first, c) => do
          let (more, c) ← quotedBreaks (c.rest.length + 1) [] c
          quotedFrom double fuel (add (folded first more)) c
      else if d = (if double then '"' else '\'') then
        if !double && rest.head? = some '\'' then quotedFrom double fuel (add ['\'']) (c.forward 2)
        else .ok (q, c.advance)
      else if double && d = '\\' then
        match rest with
        | [] => .error .malformed
        | e :: digits =>
          match letterEscape? e, codeWidth? e with
          | some escaped, _ => quotedFrom double fuel (add [escaped]) (c.forward 2)
          | none, some width => do
            let n ← codePoint width digits
            let next := c.forward (2 + width)
            if n.isValidChar then quotedFrom double fuel (add [Char.ofNat n]) next
            else quotedFrom double fuel { q with halved := true } next
          | none, none =>
            if isBreak e then do
              let (more, c) ← quotedBreaks (c.rest.length + 1) [] (c.forward 2)
              quotedFrom double fuel (add more) c
            else .error .malformed
      else quotedFrom double fuel (add [d]) c.advance

/-- The quoted scalar whose opening quote stands here, and the place behind it. -/
def quotedScalar (double : Bool) (c : Cursor) : Except Fault (QuotedText × Cursor) :=
  quotedFrom double (c.rest.length + 1) ⟨[], false⟩ c.advance

/-! ## Block scalars -/

/-- What becomes of the line breaks at the end of a block: all are dropped, the last one stays, or
all stay. -/
inductive Chomping where
  | strip
  | clip
  | keep
deriving DecidableEq

/-- A sign in the header of a block. -/
def chomping? : Option Char → Option Chomping
  | some '+' => some .keep
  | some '-' => some .strip
  | _ => none

/-- A digit in the header of a block, with the place behind it. Zero is refused. -/
def increment? (c : Cursor) : Except Fault (Option Nat × Cursor) :=
  match c.peek with
  | some d =>
    if d = '0' then .error .malformed
    else if d.isDigit then .ok (some (d.toNat - '0'.toNat), c.advance)
    else .ok (none, c)
  | none => .ok (none, c)

/-- The header of a block: a sign and a digit in any order, both optional. -/
def blockHeader (c : Cursor) : Except Fault (Chomping × Option Nat × Cursor) := do
  let (chomping, increment, c) ← match chomping? c.peek with
    | some chomping => do
      let (increment, c) ← increment? c.advance
      pure (chomping, increment, c)
    | none => do
      let (increment, c) ← increment? c
      match increment, chomping? c.peek with
      | some n, some chomping => pure (chomping, some n, c.advance)
      | increment, _ => pure (.clip, increment, c)
  if endsItem c.peek then
    let c := c.skipSpaces.skipComment
    match c.lineBreak? with
    | some (_, c) => return (chomping, increment, c)
    | none => if c.peek.isNone then return (chomping, increment, c) else throw .malformed
  else throw .malformed

/-- The place behind the spaces that stand here before a column. -/
def skipIndent (indent : Nat) (c : Cursor) : Cursor :=
  c.forward (min (indent - c.column) (c.rest.takeWhile (· = ' ')).length)

/-- The empty lines that stand here, of which the breaks so far are given in reverse, and the place
at the column of the block. -/
def blockBreaks (indent : Nat) : Nat → List Char → Cursor → List Char × Cursor
  | 0, breaks, c => (breaks.reverse, c)
  | fuel + 1, breaks, c =>
    let c := skipIndent indent c
    match c.lineBreak? with
    | none => (breaks.reverse, c)
    | some (b, c) => blockBreaks indent fuel (b :: breaks) c

/-- The empty lines before a block whose indentation is found out, and the greatest column met. -/
def blockIndent : Nat → List Char → Nat → Cursor → List Char × Nat × Cursor
  | 0, breaks, greatest, c => (breaks.reverse, greatest, c)
  | fuel + 1, breaks, greatest, c =>
    let c := c.skipSpaces
    let greatest := max greatest c.column
    match c.lineBreak? with
    | none => (breaks.reverse, greatest, c)
    | some (b, c) => blockIndent fuel (b :: breaks) greatest c

/-- The lines of a block, with the last break and the empty lines behind it apart. -/
structure BlockText where
  text : List Char
  lastBreak : List Char
  breaks : List Char
  next : Cursor

/-- Whether a line of the block starts here. -/
def atBlockLine (indent : Nat) (c : Cursor) : Bool := c.column = indent && c.peek.isSome

/-- The rest of a block. In a folded block a break between two lines that do not start with a blank
is folded. -/
def blockLines (folds : Bool) (indent : Nat) : Nat → BlockText → BlockText
  | 0, block => block
  | fuel + 1, block =>
    if atBlockLine indent block.next then
      let solid := !block.next.peek.any isInline
      let (line, c) := block.next.takeSpan (!isBreak ·)
      let text := block.text ++ block.breaks ++ line
      let (lastBreak, c) := match c.lineBreak? with
        | some (b, c) => ([b], c)
        | none => ([], c)
      let (breaks, c) := blockBreaks indent (c.rest.length + 1) [] c
      if atBlockLine indent c then
        let between :=
          if folds && lastBreak = ['\n'] && solid && !c.peek.any isInline then
            if breaks.isEmpty then [' '] else []
          else lastBreak
        blockLines folds indent fuel ⟨text ++ between, [], breaks, c⟩
      else ⟨text, lastBreak, breaks, c⟩
    else block

/-- The block scalar whose indicator stands here, and the place behind it. -/
def blockScalar (folds : Bool) (indent : Int) (c : Cursor) : Except Fault (List Char × Cursor) := do
  let (chomping, increment, c) ← blockHeader c.advance
  let least := max (indent + 1) 1 |>.toNat
  let fuel := c.rest.length + 1
  let (column, breaks, c) := match increment with
    | some n =>
      let column := least + n - 1
      let (breaks, c) := blockBreaks column fuel [] c
      (column, breaks, c)
    | none =>
      let (breaks, greatest, c) := blockIndent fuel [] 0 c
      (max least greatest, breaks, c)
  let block := blockLines folds column fuel ⟨[], [], breaks, c⟩
  let ending := match chomping with
    | .strip => []
    | .clip => block.lastBreak
    | .keep => block.lastBreak ++ block.breaks
  return (block.text ++ ending, block.next)

end ShellTemplate.Yaml
