import ShellTemplate.Config.Basic

/-!
# Assignments on the command line

A value is given as `name=value`, a list as `name=a,b,c`. Of several values for one name the last
counts.

* `assignments` — the values of some items, or the first item that is no assignment.
-/

namespace ShellTemplate.CommandLine

/-- The name and the value of an assignment: what stands before the first equals sign, which may not
be empty, and what stands behind it. -/
def assignment? (item : String) : Option (String × String) :=
  let name := item.toList.takeWhile (· ≠ '=')
  match item.toList.dropWhile (· ≠ '=') with
  | [] => none
  | _ :: value => if name.isEmpty then none else some (String.ofList name, String.ofList value)

/-- The items of a list; an empty text is the empty list. -/
def listItems (value : String) : List String :=
  if value.isEmpty then [] else (value.toList.splitOn ',').map String.ofList

/-- The value that an assignment gives: its text, or the list of the items of its text. -/
def assigned (asList : Bool) (value : String) : Value :=
  if asList then .list ((listItems value).map .str) else .str value

/-- The named values with those of some items put in one after the other. An item that is no
assignment is returned. -/
def assignInto (asList : Bool) (values : List (String × Value)) :
    List String → Except String (List (String × Value))
  | [] => .ok values
  | item :: rest =>
    match assignment? item with
    | none => .error item
    | some (name, value) => assignInto asList (putNamed name (assigned asList value) values) rest

/-- The named values of some items. -/
def assignments (asList : Bool) (items : List String) : Except String (List (String × Value)) :=
  assignInto asList [] items

end ShellTemplate.CommandLine
