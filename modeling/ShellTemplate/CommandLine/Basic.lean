import ShellTemplate.CommandLine.Assignment
import ShellTemplate.CommandLine.Options
import ShellTemplate.Config.Load
import ShellTemplate.Json.Parts
import ShellTemplate.Template.Basic
import ShellTemplate.Terminal

/-!
# The command line

The commands `render`, `parse` and `quote`, what they print, and how they fail. Arguments are texts:
bytes that are no UTF-8 cannot be given.

* `Command.ofArguments?` — the command that some arguments give.
* `run` — what a command prints, or why it fails.
-/

namespace ShellTemplate.CommandLine

/-- What is to be rendered: a template or the name of one, assignments of scalars and of lists, a
configuration file, and a style. -/
structure Rendering where
  template : String
  scalars : List String
  lists : List String
  file : Option String
  style : Option String
deriving DecidableEq, Repr

/-- A command. -/
inductive Command where
  | version
  | help
  | render (rendering : Rendering)
  | parse (template : String)
  | quote (words : List String)
deriving DecidableEq, Repr

/-- The version of the program. -/
def versionText : String := "shq 0.1.0"

/-- A reminder of the commands. -/
def helpText : String :=
  "Usage: shq [--verbose] [-V|--version] COMMAND\n\n" ++
  "  render TEMPLATE [-s NAME=VALUE] [-l NAME=A,B] [-f FILE] [--style STYLE]\n" ++
  "  parse TEMPLATE\n" ++
  "  quote WORD..."

/-- The option that asks for help. -/
def helpForm : OptionForm := ⟨.help, "help", none, false⟩

/-- The options before a command. -/
def globalForms : List OptionForm :=
  [⟨.verbose, "verbose", none, false⟩, ⟨.version, "version", some 'V', false⟩, helpForm]

/-- The options of rendering. -/
def renderForms : List OptionForm :=
  [⟨.set, "set", some 's', true⟩, ⟨.list, "list", some 'l', true⟩, ⟨.file, "file", some 'f', true⟩,
    ⟨.style, "style", none, true⟩, helpForm]

namespace Command

/-- The command to render. -/
def renderOf? (args : List String) : Option Command := do
  let a ← Arguments.read? renderForms true args
  if a.has .help then return help
  match a.words with
  | [template] =>
    return render ⟨template, a.valuesOf .set, a.valuesOf .list, (a.valuesOf .file).getLast?,
      (a.valuesOf .style).getLast?⟩
  | _ => none

/-- The command to parse. -/
def parseOf? (args : List String) : Option Command := do
  let a ← Arguments.read? [helpForm] true args
  if a.has .help then return help
  match a.words with
  | [template] => return parse template
  | _ => none

/-- The command to quote; at least one word is needed. -/
def quoteOf? (args : List String) : Option Command := do
  let a ← Arguments.read? [helpForm] true args
  if a.has .help then return help
  if a.words.isEmpty then none else return quote a.words

/-- The command that some arguments give; `none` where they give none. -/
def ofArguments? (args : List String) : Option Command := do
  let a ← Arguments.read? globalForms false args
  match a.options.find? fun given => given.name ≠ .verbose with
  | some given => return if given.name = .version then version else help
  | none =>
    match a.words with
    | [] => none
    | name :: rest =>
      if name = "render" then renderOf? rest
      else if name = "parse" then parseOf? rest
      else if name = "quote" then quoteOf? rest
      else none

end Command

/-- Why a command fails. -/
inductive Failure where
  | notAssignment (item : String)
  | error (error : Error)

/-- Whether an error is one that a command expects. -/
def isExpected (e : Error) : Bool :=
  e.families.contains .template || e.families.contains .value

/-- The wording of a failure. -/
def Failure.message : Failure → String
  | notAssignment item => "Expected name=value, got " ++ Text.quotation item
  | error e => if isExpected e then e.message else "Unexpected error: " ++ e.message

/-- The configuration of a file that is named, or of the nearest one. -/
def configFor (packages : Packages) (files : Files) (file : Option String) :
    Except Error Config :=
  match (file.map Path.ofString).or (Config.find? files files.current) with
  | some p => Config.load packages files p
  | none => .ok .default

/-- The paths that a command may look for a configuration at. -/
def Command.configPaths (current : Path) : Command → List Path
  | render r =>
    match r.file with
    | some file => [Path.ofString file]
    | none => Config.candidates current
  | _ => []

/-- The style that is asked for, or that of the configuration; an empty name asks for none. -/
def styleFor (config : Config) (style : Option String) : Except Error Shell.Style :=
  match style.filter (· ≠ "") with
  | some name => styleOf name
  | none => .ok config.style

/-- The values that assignments give; lists come after scalars. -/
def assignedValues (r : Rendering) : Except String (List (String × Value)) := do
  let scalars ← assignments false r.scalars
  let lists ← assignments true r.lists
  return lists.foldl (fun values named => putNamed named.1 named.2 values) scalars

/-- The line of a template, or of the template of that name, with some values before those of a
configuration. -/
def lineOf (config : Config) (values : List (String × Value)) (r : Rendering) :
    Except Error String := do
  let parts ← Template.parse ((config.template? r.template).getD r.template)
  let style ← styleFor config r.style
  let context := Context.chain [.mapping (.dict (Dict.ofNamed values)), config.context]
  expand style context parts

/-- The line that a rendering gives. -/
def rendered (packages : Packages) (files : Files) (r : Rendering) : Except Failure String := do
  let values ← (assignedValues r).mapError .notAssignment
  (do
    let config ← configFor packages files r.file
    lineOf config values r).mapError .error

/-- What a command prints, line by line, or why it fails. -/
def run (packages : Packages) (files : Files) : Command → Except Failure (List String)
  | .version => .ok [versionText]
  | .help => .ok [helpText]
  | .render r => (rendered packages files r).map fun line => [line]
  | .parse template =>
    ((Template.parse template).mapError .error).map fun parts => [Json.writeParts parts]
  | .quote words => .ok (words.map (Shell.quoteText .always))

/-- How a run of the program ends. -/
structure Outcome where
  status : UInt32
  output : String
  errors : String
deriving DecidableEq, Repr

/-- A run of the program with some arguments. -/
def outcome (packages : Packages) (streams : Terminal.Streams) (files : Files)
    (args : List String) : Outcome :=
  match Command.ofArguments? args with
  | none => ⟨2, "", Terminal.echo streams.errors helpText⟩
  | some command =>
    match run packages files command with
    | .ok lines => ⟨0, String.join (lines.map (Terminal.echo streams.output)), ""⟩
    | .error failure => ⟨1, "", Terminal.echoRed streams.errors ("Error: " ++ failure.message)⟩

end ShellTemplate.CommandLine
