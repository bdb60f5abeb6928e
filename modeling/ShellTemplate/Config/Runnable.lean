import ShellTemplate.Config.Load
import ShellTemplate.Text.Newline
import ShellTemplate.Yaml.Document

/-!
# Packages that run

Packages that the program can be run with. They read the documents and refuse the values that the
real ones do, but for documents that nest deeper than the interpreter follows, and they have fewer
words for what is wrong: nothing is said about the place of a fault. The bytes of a file are decoded
before anything in them is read.
-/

namespace ShellTemplate

/-- The value of the document in some bytes. -/
def documentOf (content : List UInt8) : Except PackageFault Value :=
  match Text.decode content with
  | .error fault => .error (.raised (.notUtf8 fault))
  | .ok text =>
    match Yaml.readDocument (Text.unifyNewlines text) with
    | .ok v => .ok v
    | .error .malformed => .error (.refused "malformed document")
    | .error (.scalar e) => .error (.raised e)

/-- Packages that run. -/
def Packages.runnable : Packages where
  document := documentOf
  config v := ((Config.ofValue? v).map Except.ok).getD (.error (.refused "invalid configuration"))

end ShellTemplate
