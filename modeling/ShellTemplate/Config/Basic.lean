import ShellTemplate.Shell.Quote
import ShellTemplate.Text.Utf8
import ShellTemplate.Value.Items
import ShellTemplate.Value.Equality

/-!
# Configurations

A configuration gives a default style, variables and named templates. A variable is a scalar or a
list of scalars; a scalar is a text, a whole number or a finite floating-point number.

* `Config.ofValue?` — the configuration that a value describes, if its fields have the right types.
* `Config.context` — the context of the variables.
-/

namespace ShellTemplate

open Number Shell

/-- A scalar variable. -/
inductive Scalar where
  | text (s : String)
  | whole (n : Int)
  | real (x : Binary64)
deriving DecidableEq, Repr

/-- A variable. -/
inductive Setting where
  | scalar (s : Scalar)
  | list (items : List Scalar)
deriving DecidableEq, Repr

/-- A configuration. Variables and templates stand in the order in which they were given. -/
structure Config where
  style : Style
  settings : List (String × Setting)
  templates : List (String × String)

/-- The value of a scalar. -/
def Scalar.value : Scalar → Value
  | text s => .str s
  | whole n => .int n
  | real x => .float x

/-- The value of a variable. -/
def Setting.value : Setting → Value
  | scalar s => s.value
  | list items => .list (items.map Scalar.value)

/-- The scalar that a value is; truth values, infinities and what is no number are none. -/
def Scalar.ofValue? : Value → Option Scalar
  | .str s => some (.text s)
  | .int n => some (.whole n)
  | .float x => if x.isFinite then some (.real x) else none
  | .decimal d =>
    let x := Binary64.ofDecimal d
    if x.isFinite then some (.real x) else none
  | _ => none

/-- The items of a value that may give a list: of a list, a tuple or a range, and of a set in the
order in which it hands them out. -/
def settingItems? : Value → Option (List Value)
  | .set items => some items
  | v => v.listItems?

/-- The variable that a value is. -/
def Setting.ofValue? (v : Value) : Option Setting :=
  match Scalar.ofValue? v with
  | some s => some (.scalar s)
  | none => ((settingItems? v).bind (List.mapM Scalar.ofValue?)).map .list

/-- The text that a value is; bytes stand for the text that they encode. -/
def textOfValue? : Value → Option String
  | .str s => some s
  | .bytes bs | .bytearray bs =>
    match Text.decode bs with
    | .ok cs => some (String.ofList cs)
    | .error _ => none
  | _ => none

/-- Entries with one more: a name that is there keeps its place and gets the new value. -/
def putNamed {α : Type} (name : String) (a : α) : List (String × α) → List (String × α)
  | [] => [(name, a)]
  | entry :: rest =>
    if entry.1 = name then (name, a) :: rest else entry :: putNamed name a rest

/-- The entries of a dictionary with texts for keys and values of one kind. -/
def namedEntries? {α : Type} (read : Value → Option α) : Value → Option (List (String × α))
  | .dict entries =>
    entries.foldlM (fun (found : List (String × α)) (entry : Value × Value) => do
      let name ← textOfValue? entry.1
      let a ← read entry.2
      return putNamed name a found) []
  | _ => none

namespace Config

/-- The configuration where none is given. -/
def default : Config := ⟨.minimal, [], []⟩

/-- The configuration with one of its fields given by a value. -/
def withField? (c : Config) (field : String) (v : Value) : Option Config :=
  if field = "style" then
    match v with
    | .str s => (Style.ofName? s).map fun style => { c with style := style }
    | _ => none
  else if field = "vars" then
    (namedEntries? Setting.ofValue? v).map fun settings => { c with settings := settings }
  else if field = "templates" then
    (namedEntries? textOfValue? v).map fun templates => { c with templates := templates }
  else none

/-- The configuration that a value describes. -/
def ofValue? : Value → Option Config
  | .dict entries =>
    entries.foldlM (fun (c : Config) (entry : Value × Value) =>
      match entry with
      | (.str field, v) => c.withField? field v
      | _ => none) default
  | _ => none

/-- The template of a name. -/
def template? (c : Config) (name : String) : Option String := c.templates.lookup name

/-- The variables as named values. -/
def values (c : Config) : List (String × Value) :=
  c.settings.map fun (name, setting) => (name, setting.value)

/-- The context of the variables. -/
def context (c : Config) : Context := .mapping (.dict (Dict.ofNamed c.values))

end Config

end ShellTemplate
