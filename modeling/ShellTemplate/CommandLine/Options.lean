/-!
# Options of a command line

Arguments that start with a dash are options. A long option has its value behind an equals sign or
in the next argument; short ones can be joined, and the rest of the argument, if there is one, is
the value of the first of them that takes one. Behind two dashes all arguments are words.

* `Arguments.read?` — the options and the words among some arguments.
-/

namespace ShellTemplate.CommandLine

/-- What an option says. -/
inductive OptionName where
  | verbose
  | version
  | help
  | set
  | list
  | file
  | style
deriving DecidableEq, Repr

/-- How an option is written: a long name, possibly a letter, and whether it takes a value. -/
structure OptionForm where
  name : OptionName
  long : String
  letter : Option Char
  takesValue : Bool

/-- An option that was given, with its value if it takes one. -/
structure Given where
  name : OptionName
  value : String
deriving DecidableEq, Repr

/-- The options and the words among some arguments, in order. -/
structure Arguments where
  options : List Given
  words : List String
deriving DecidableEq, Repr

/-- The options that one argument gives, and the one whose value is the next argument. -/
structure Occurrence where
  options : List Given
  awaiting : Option OptionName

/-- The options that letters behind a dash give. -/
def lettersOf? (forms : List OptionForm) : List Char → Option Occurrence
  | [] => some ⟨[], none⟩
  | c :: rest => do
    let form ← forms.find? fun form => form.letter = some c
    if form.takesValue then
      if rest.isEmpty then some ⟨[], some form.name⟩
      else some ⟨[⟨form.name, String.ofList rest⟩], none⟩
    else
      let others ← lettersOf? forms rest
      return { others with options := ⟨form.name, ""⟩ :: others.options }

/-- The option of a long name, with the value behind its equals sign. -/
def longOf? (forms : List OptionForm) (cs : List Char) : Option Occurrence := do
  let name := cs.takeWhile (· ≠ '=')
  let form ← forms.find? fun form => form.long.toList = name
  match form.takesValue, cs.dropWhile (· ≠ '=') with
  | true, _ :: value => some ⟨[⟨form.name, String.ofList value⟩], none⟩
  | true, [] => some ⟨[], some form.name⟩
  | false, [] => some ⟨[⟨form.name, ""⟩], none⟩
  | false, _ :: _ => none

/-- The options that an argument gives; `none` if it is a word. -/
def optionsIn? (forms : List OptionForm) : List Char → Option (Option Occurrence)
  | '-' :: '-' :: name => some (longOf? forms name)
  | '-' :: c :: letters => some (lettersOf? forms (c :: letters))
  | _ => none

namespace Arguments

/-- The arguments with options before them. -/
def withOptions (options : List Given) (a : Arguments) : Arguments :=
  { a with options := options ++ a.options }

/-- The arguments with a word before them. -/
def withWord (word : String) (a : Arguments) : Arguments := { a with words := word :: a.words }

/-- The options and the words among some arguments; `none` if an option is unknown, lacks its value
or has one that it does not take. Options may stand between words, or end at the first one. -/
def read? (forms : List OptionForm) (between : Bool) : List String → Option Arguments
  | [] => some ⟨[], []⟩
  | arg :: rest =>
    if arg = "--" then some ⟨[], rest⟩
    else
      match optionsIn? forms arg.toList with
      | none =>
        if between then (read? forms between rest).map (withWord arg) else some ⟨[], arg :: rest⟩
      | some none => none
      | some (some ⟨options, none⟩) => (read? forms between rest).map (withOptions options)
      | some (some ⟨options, some name⟩) =>
        match rest with
        | [] => none
        | value :: rest' =>
          (read? forms between rest').map (withOptions (options ++ [⟨name, value⟩]))

/-- Whether an option was given. -/
def has (name : OptionName) (a : Arguments) : Bool := a.options.any (·.name = name)

/-- The values of an option, in the order in which they were given. -/
def valuesOf (name : OptionName) (a : Arguments) : List String :=
  (a.options.filter (·.name = name)).map Given.value

end Arguments

end ShellTemplate.CommandLine
