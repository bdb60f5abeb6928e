import ShellTemplate.Yaml.Number
import ShellTemplate.Yaml.Timestamp
import ShellTemplate.Text.Newline

/-!
# Tags

The type of a node. A node may name its type; a plain scalar that does not has the type that its
text looks like.

* `Tag.ofName` — the type of a name.
* `Tag.ofPlain` — the type that a plain text looks like.
-/

namespace ShellTemplate.Yaml

/-- The type of a node. -/
inductive Tag where
  | null
  | truth
  | whole
  | float
  | binary
  | timestamp
  | text
  | sequence
  | mapping
  | set
  | pairs
  /-- The key whose value is merged into a mapping. -/
  | merge
  /-- The key of the value that a mapping stands for. -/
  | value
  | unknown
deriving DecidableEq

/-- The names of the types of the format start with this. -/
def standardLead : String := "tag:yaml.org,2002:"

namespace Tag

/-- The types of the format by the rest of their names. Both kinds of lists of pairs are one. -/
def standard : List (String × Tag) :=
  [("null", null), ("bool", truth), ("int", whole), ("float", float), ("binary", binary),
    ("timestamp", timestamp), ("str", text), ("seq", sequence), ("map", mapping), ("set", set),
    ("omap", pairs), ("pairs", pairs), ("merge", merge), ("value", value)]

/-- The type of a name. -/
def ofName (name : String) : Tag :=
  ((standard.find? fun entry => standardLead ++ entry.1 = name).map Prod.snd).getD unknown

/-- The plain texts that are truth values. -/
def truths : List String :=
  ["yes", "Yes", "YES", "no", "No", "NO", "true", "True", "TRUE", "false", "False", "FALSE",
    "on", "On", "ON", "off", "Off", "OFF"]

/-- Whether a plain text is a date with two digits for month and day, or a date and a time. -/
def isTimestamp (cs : List Char) : Bool :=
  (Timestamp.ofChars? cs).any fun t => t.padded || t.clock.isSome

/-- The type that a plain text of one line looks like. -/
def ofLine (cs : List Char) : Tag :=
  let s := String.ofList cs
  if truths.contains s then truth
  else if isFloat cs then float
  else if isWhole cs then whole
  else if s = "<<" then merge
  else if ["~", "null", "Null", "NULL"].contains s then null
  else if isTimestamp cs then timestamp
  else if s = "=" then value
  else text

/-- The type that a plain text looks like. A line feed at its end does not count. -/
def ofPlain (cs : List Char) : Tag := if cs.isEmpty then null else ofLine (Text.dropLastNewline cs)

end Tag

end ShellTemplate.Yaml
