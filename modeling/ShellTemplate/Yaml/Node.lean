import ShellTemplate.Yaml.Tag
import ShellTemplate.Yaml.Token

/-!
# Nodes of a YAML document

The tree of a document: scalars, sequences and mappings with their types. An alias stands for the
node with its anchor. Entries that a mapping merges stand before its own.

Each step of the reader takes up a token, so the number of tokens bounds the steps.

* `readNode` — the node of the one document of a text.
-/

namespace ShellTemplate.Yaml

/-- A node. -/
inductive Node where
  | scalar (tag : Tag) (text : List Char)
  | sequence (tag : Tag) (items : List Node)
  | mapping (tag : Tag) (entries : List (Node × Node))
  /-- A mapping that merges what is no mapping. -/
  | badMerge
  /-- A text that holds half of a surrogate pair. -/
  | halved
  /-- A collection within itself. -/
  | cycle

namespace Node

/-- The node of a place that is left empty. -/
def empty : Node := .scalar .null []

/-- Whether an entry is one to merge. -/
def isMerge : Node × Node → Bool
  | (.scalar .merge _, _) => true
  | _ => false

/-- The entries that a node gives to a mapping that merges it. -/
def mergedEntries? : Node → Option (List (Node × Node))
  | .mapping _ entries => some entries
  | .cycle => some []
  | _ => none

/-- The entries that the value of a merge entry gives; of several mappings the later ones come
first. -/
def merged? : Node → Option (List (Node × Node))
  | .sequence _ items => (items.mapM mergedEntries?).map fun parts => parts.reverse.flatten
  | n => n.mergedEntries?

/-- The mapping of some entries, with those to merge put before the others. -/
def ofEntries (tag : Tag) (entries : List (Node × Node)) : Node :=
  match (entries.filter isMerge).mapM fun entry => merged? entry.2 with
  | some merged => .mapping tag (merged.flatten ++ entries.filter (!isMerge ·))
  | none => .badMerge

end Node

/-- What is known while reading: the tokens to come, what the anchors stand for (nothing yet, within
their own nodes), and what the handles of tags stand for. -/
structure Reader where
  tokens : List Token
  anchors : List (String × Option Node)
  handles : List (String × String)

namespace Reader

/-- The refusal of the token that comes next. -/
def refuse {α : Type} (r : Reader) : Except Fault α :=
  match r.tokens with
  | .stop fault :: _ => .error fault
  | _ => .error .malformed

/-- The reader with other tokens to come. -/
def onto (r : Reader) (tokens : List Token) : Reader := { r with tokens := tokens }

/-- The reader behind the comma that has to stand between two items; the end needs none. -/
def pastComma (first : Bool) (ending : Token → Bool) (r : Reader) : Except Fault Reader :=
  if first || r.tokens.head?.any ending then .ok r
  else
    match r.tokens with
    | .flowEntry :: rest => .ok (r.onto rest)
    | _ => r.refuse

/-- With a node for an anchor, if there is one. -/
def bind (anchor : Option String) (node : Option Node) (r : Reader) : Reader :=
  match anchor with
  | some name => { r with anchors := (name, node) :: r.anchors }
  | none => r

/-- The name of a tag: a handle stands for the start of it. -/
def tagName (handle : Option String) (name : String) (r : Reader) : Except Fault String :=
  match handle with
  | none => .ok name
  | some handle =>
    match r.handles.lookup handle with
    | some lead => .ok (lead ++ name)
    | none => .error .malformed

/-- The anchor and the name of the tag before a node, in any order, both optional. The name of an
anchor has to be new. -/
def properties (r : Reader) : Except Fault (Option String × Option String × Reader) := do
  let (anchor, tag, rest) := match r.tokens with
    | .anchor anchor :: .tag handle name :: rest | .tag handle name :: .anchor anchor :: rest =>
      (some anchor, some (handle, name), rest)
    | .anchor anchor :: rest => (some anchor, none, rest)
    | .tag handle name :: rest => (none, some (handle, name), rest)
    | rest => (none, none, rest)
  if anchor.any fun name => (r.anchors.lookup name).isSome then throw .malformed
  let tag ← tag.mapM fun (handle, name) => r.tagName handle name
  return (anchor, tag, r.onto rest)

end Reader

/-- The type that a node is given: the one that is named, or another if none is. A lone exclamation
mark names none. -/
def givenTag (name : Option String) (otherwise : Tag) : Tag :=
  match name with
  | none => otherwise
  | some name => if name = "!" then otherwise else .ofName name

/-- The scalar of a quoted text. A lone exclamation mark has it taken for a plain one. -/
def quotedNode (name : Option String) (q : QuotedText) : Node :=
  if q.halved then .halved
  else .scalar (givenTag name (if name.isNone then .text else .ofPlain q.text)) q.text

/-- Where a node stands: in a block, in a mapping of a block, where dashes need not be indented, or
between brackets. -/
inductive Place where
  | block
  | member
  | flow
deriving DecidableEq

/-- Whether a token says that an item of an indented block is left empty. -/
def endsItemNode : Token → Bool
  | .blockEntry | .blockEnd => true
  | _ => false

/-- Whether a token says that an item of a block that is not indented is left empty. -/
def endsFlushItem : Token → Bool
  | .blockEntry | .key | .value | .blockEnd => true
  | _ => false

/-- Whether a token says that a key or a value in a block is left empty. -/
def endsMember : Token → Bool
  | .key | .value | .blockEnd => true
  | _ => false

/-- Whether a token says that a value between brackets is left empty. -/
def endsFlowValue : Token → Bool
  | .flowEntry | .flowSequenceEnd | .flowMappingEnd => true
  | _ => false

/-- Whether a token says that a key between brackets is left empty. -/
def endsFlowKey : Token → Bool
  | .value => true
  | token => endsFlowValue token

mutual

/-- Reads a node. -/
def node : Nat → Place → Reader → Except Fault (Node × Reader)
  | 0, _, r => r.refuse
  | fuel + 1, place, r =>
    match r.tokens with
    | .alias name :: rest =>
      match r.anchors.lookup name with
      | some found => .ok (found.getD .cycle, r.onto rest)
      | none => .error .malformed
    | _ => do
      let (anchor, tag, r) ← r.properties
      let (found, r) ← content fuel place (anchor.isSome || tag.isSome) tag (r.bind anchor none)
      return (found, r.bind anchor (some found))
termination_by structural fuel => fuel

/-- Reads what stands behind the anchor and the tag of a node. Only where there is one of them may
nothing stand there. -/
def content : Nat → Place → Bool → Option String → Reader → Except Fault (Node × Reader)
  | 0, _, _, _, r => r.refuse
  | fuel + 1, place, marked, tag, r =>
    match r.tokens, place with
    | .plain text :: rest, _ => .ok (.scalar (givenTag tag (.ofPlain text)) text, r.onto rest)
    | .quoted q :: rest, _ => .ok (quotedNode tag q, r.onto rest)
    | .flowSequenceStart :: rest, _ => do
      let (items, r) ← flowSequence fuel true [] (r.onto rest)
      return (.sequence (givenTag tag .sequence) items, r)
    | .flowMappingStart :: rest, _ => do
      let (entries, r) ← flowMapping fuel true [] (r.onto rest)
      return (.ofEntries (givenTag tag .mapping) entries, r)
    | .blockSequenceStart :: rest, .block | .blockSequenceStart :: rest, .member => do
      let (items, r) ← blockSequence fuel [] (r.onto rest)
      return (.sequence (givenTag tag .sequence) items, r)
    | .blockMappingStart :: rest, .block | .blockMappingStart :: rest, .member => do
      let (entries, r) ← blockMapping fuel [] (r.onto rest)
      return (.ofEntries (givenTag tag .mapping) entries, r)
    | .blockEntry :: _, .member => do
      let (items, r) ← flushSequence fuel [] r
      return (.sequence (givenTag tag .sequence) items, r)
    | _, _ => if marked then .ok (.scalar (givenTag tag .null) [], r) else r.refuse
termination_by structural fuel => fuel

/-- Reads a node, or an empty one before a token that says so. -/
def nodeUnless : Nat → (Token → Bool) → Place → Reader → Except Fault (Node × Reader)
  | 0, _, _, r => r.refuse
  | fuel + 1, ends, place, r =>
    if r.tokens.head?.any ends then .ok (.empty, r) else node fuel place r
termination_by structural fuel => fuel

/-- Reads the value of a key: what stands behind a value token, or an empty node. -/
def valueNode : Nat → (Token → Bool) → Place → Reader → Except Fault (Node × Reader)
  | 0, _, _, r => r.refuse
  | fuel + 1, ends, place, r =>
    match r.tokens with
    | .value :: rest => nodeUnless fuel ends place (r.onto rest)
    | _ => .ok (.empty, r)
termination_by structural fuel => fuel

/-- Reads the items of an indented block; those read so far are given in reverse. -/
def blockSequence : Nat → List Node → Reader → Except Fault (List Node × Reader)
  | 0, _, r => r.refuse
  | fuel + 1, items, r =>
    match r.tokens with
    | .blockEntry :: rest => do
      let (item, r) ← nodeUnless fuel endsItemNode .block (r.onto rest)
      blockSequence fuel (item :: items) r
    | .blockEnd :: rest => .ok (items.reverse, r.onto rest)
    | _ => r.refuse
termination_by structural fuel => fuel

/-- Reads the items of a block that is not indented. -/
def flushSequence : Nat → List Node → Reader → Except Fault (List Node × Reader)
  | 0, _, r => r.refuse
  | fuel + 1, items, r =>
    match r.tokens with
    | .blockEntry :: rest => do
      let (item, r) ← nodeUnless fuel endsFlushItem .block (r.onto rest)
      flushSequence fuel (item :: items) r
    | _ => .ok (items.reverse, r)
termination_by structural fuel => fuel

/-- Reads the entries of a block. -/
def blockMapping : Nat → List (Node × Node) → Reader → Except Fault (List (Node × Node) × Reader)
  | 0, _, r => r.refuse
  | fuel + 1, entries, r =>
    match r.tokens with
    | .key :: rest => do
      let (key, r) ← nodeUnless fuel endsMember .member (r.onto rest)
      let (value, r) ← valueNode fuel endsMember .member r
      blockMapping fuel ((key, value) :: entries) r
    | .blockEnd :: rest => .ok (entries.reverse, r.onto rest)
    | _ => r.refuse
termination_by structural fuel => fuel

/-- Reads the items between brackets, behind the opening one or behind an item. An item with a key
is a mapping of one entry. -/
def flowSequence : Nat → Bool → List Node → Reader → Except Fault (List Node × Reader)
  | 0, _, _, r => r.refuse
  | fuel + 1, first, items, r => do
    let r ← r.pastComma first (· matches .flowSequenceEnd)
    match r.tokens with
    | .flowSequenceEnd :: rest => return (items.reverse, r.onto rest)
    | .key :: rest =>
      let (key, r) ← nodeUnless fuel endsFlowKey .flow (r.onto rest)
      let (value, r) ← valueNode fuel endsFlowValue .flow r
      flowSequence fuel false (.ofEntries .mapping [(key, value)] :: items) r
    | _ =>
      let (item, r) ← node fuel .flow r
      flowSequence fuel false (item :: items) r
termination_by structural fuel => fuel

/-- Reads the entries between braces, behind the opening one or behind an entry. An entry without a
key token has no value. -/
def flowMapping :
    Nat → Bool → List (Node × Node) → Reader → Except Fault (List (Node × Node) × Reader)
  | 0, _, _, r => r.refuse
  | fuel + 1, first, entries, r => do
    let r ← r.pastComma first (· matches .flowMappingEnd)
    match r.tokens with
    | .flowMappingEnd :: rest => return (entries.reverse, r.onto rest)
    | .key :: rest =>
      let (key, r) ← nodeUnless fuel endsFlowKey .flow (r.onto rest)
      let (value, r) ← valueNode fuel endsFlowValue .flow r
      flowMapping fuel false ((key, value) :: entries) r
    | _ =>
      let (key, r) ← node fuel .flow r
      flowMapping fuel false ((key, .empty) :: entries) r
termination_by structural fuel => fuel

end

/-! ## Documents -/

/-- The handles of tags that need no directive. -/
def defaultHandles : List (String × String) := [("!", "!"), ("!!", standardLead)]

/-- Reads the directives of a document: whether a version was given, and the handles. -/
def directives : Bool → List (String × String) → List Token →
    Except Fault (List (String × String) × List Token)
  | versioned, handles, .directive d :: rest =>
    match d with
    | .version major =>
      if versioned || major ≠ 1 then .error .malformed else directives true handles rest
    | .handle name lead =>
      if (handles.lookup name).isSome then .error .malformed
      else directives versioned ((name, lead) :: handles) rest
    | .reserved => directives versioned handles rest
  | _, handles, tokens => .ok (handles ++ defaultHandles, tokens)

/-- Whether a token says that a document is left empty. -/
def endsDocument : Token → Bool
  | .directive _ | .documentStart | .documentEnd | .streamEnd => true
  | _ => false

/-- Nothing but the ends of a document may follow it. -/
def requireEnd (r : Reader) : List Token → Except Fault Unit
  | .documentEnd :: rest => requireEnd (r.onto rest) rest
  | [.streamEnd] => .ok ()
  | _ => r.refuse

/-- Reads the one document that starts with some tokens; a text may also hold none. -/
def documentNode (tokens : List Token) : Except Fault (Option Node) := do
  let fuel := 4 * tokens.length + 4
  match tokens with
  | [.streamEnd] => return none
  | .directive _ :: _ | .documentStart :: _ =>
    let (handles, tokens) ← directives false [] tokens
    let r : Reader := ⟨tokens, [], handles⟩
    match tokens with
    | .documentStart :: rest =>
      let (found, r) ← nodeUnless fuel endsDocument .block (r.onto rest)
      requireEnd r r.tokens
      return some found
    | _ => r.refuse
  | _ =>
    let (found, r) ← node fuel .block ⟨tokens, [], defaultHandles⟩
    requireEnd r r.tokens
    return some found

/-- Whether a character may stand in a text. -/
def isAllowed (c : Char) : Bool :=
  let n := c.toNat
  n = 0x09 || n = 0x0A || n = 0x0D || (0x20 ≤ n && n ≤ 0x7E) || n = 0x85 ||
    (0xA0 ≤ n && n ≤ 0xFFFD) || 0x10000 ≤ n

/-- The node of the one document of a text. -/
def readNode (text : List Char) : Except Fault (Option Node) :=
  if text.all isAllowed then documentNode (scan text) else .error .malformed

end ShellTemplate.Yaml
