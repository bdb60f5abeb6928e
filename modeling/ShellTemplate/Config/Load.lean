import ShellTemplate.Config.Basic
import ShellTemplate.Files.Tree

/-!
# Configuration files

A configuration is kept in a file in YAML. The file is looked for in a directory and in those above
it. Reading the YAML and checking the types of the fields are left to two packages, with all that
they find wrong and how they say it.

* `Packages` — what the two packages do.
* `Config.load` — the configuration of a file; without the file it is the default.
* `Config.find?` — the nearest configuration file.
-/

namespace ShellTemplate

/-- Why a package has no result: it refuses what it was given, in its own words, or something in it
raises an error of another kind. -/
inductive PackageFault where
  | refused (detail : String)
  | raised (e : Error)

/-- What is made of the fault of a package: a refusal is one of the configuration at a path, any
other error is passed on. -/
def PackageFault.toError (path : String) (kind : String → ConfigFault) : PackageFault → Error
  | refused detail => .config path (kind detail)
  | raised e => e

/-- What the packages do that read configurations: one gives the value of the YAML document in the
bytes of a file, the other the configuration of a value. -/
structure Packages where
  document : List UInt8 → Except PackageFault Value
  config : Value → Except PackageFault Config

/-- Whether a document with this value says nothing: null, false, zero, or nothing in it. -/
def Value.saysNothing : Value → Bool
  | .null => true
  | .bool b => !b
  | .int n => n = 0
  | .float (.finite _ mantissa _) => mantissa = 0
  | .decimal (.finite numeral) => numeral.coefficient = 0
  | .str s => s.isEmpty
  | .bytes bs | .bytearray bs => bs.isEmpty
  | .list items | .tuple items | .set items => items.isEmpty
  | .range start stop step => rangeLength start stop step = 0
  | .dict entries => entries.isEmpty
  | .undefined => true
  | _ => false

namespace Config

/-- The name of a configuration file. -/
def fileName : String := "shq.yaml"

/-- The configuration that a document describes. One that says nothing describes what an empty
dictionary does. -/
def ofDocument (packages : Packages) (path : String) (document : Value) : Except Error Config :=
  match if document.saysNothing then .dict [] else document with
  | .dict entries =>
    (packages.config (.dict entries)).mapError (PackageFault.toError path .invalid)
  | _ => .error (.config path .notMapping)

/-- The configuration of a file. -/
def load (packages : Packages) (files : Files) (p : Path) : Except Error Config :=
  match files.entry? p with
  | none => .ok default
  | some (.directory _) => .error (.isDirectory p.text)
  | some (.file content) => do
    let document ←
      (packages.document content).mapError (PackageFault.toError p.text .malformed)
    ofDocument packages p.text document

/-- Where a configuration file is looked for: in a directory and in those above it. -/
def candidates (start : Path) : List Path := start.upward.map fun d => d.child fileName

/-- The nearest configuration file in a directory or above it. -/
def find? (files : Files) (start : Path) : Option Path := (candidates start).find? files.exists?

end Config

end ShellTemplate
