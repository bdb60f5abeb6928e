import ShellTemplate.Files.Path

/-!
# Trees of files

Files are seen from a current directory: a path may denote an entry. A tree of directories and files
without links is one way to say which.

* `Files.exists?` — whether a path denotes an entry.
* `Entry.files` — the files of a tree.
-/

namespace ShellTemplate

/-- A file with its bytes, or a directory with its entries. -/
inductive Entry where
  | file (content : List UInt8)
  | directory (entries : List (String × Entry))

/-- The current directory, and the entries that paths denote. -/
structure Files where
  current : Path
  entry? : Path → Option Entry

/-- Whether a path denotes an entry. -/
def Files.exists? (files : Files) (p : Path) : Bool := (files.entry? p).isSome

namespace Entry

/-- The entries of a directory, none for a file. -/
def entries : Entry → List (String × Entry)
  | file _ => []
  | directory entries => entries

/-- The directory with an entry put in place of any other of its name. -/
def withEntry (d : Entry) (name : String) (e : Entry) : Entry :=
  .directory (d.entries.filter (·.1 ≠ name) ++ [(name, e)])

/-- The tree with an entry at some steps from its root; directories on the way are made. -/
def place (e : Entry) : List String → Entry → Entry
  | [], _ => e
  | step :: rest, d =>
    d.withEntry step (place e rest ((d.entries.lookup step).getD (.directory [])))

/-- The tree with a directory at some steps from its root. One that is there keeps its entries. -/
def makeDirectory : List String → Entry → Entry
  | [], d => .directory d.entries
  | step :: rest, d =>
    d.withEntry step (makeDirectory rest ((d.entries.lookup step).getD (.directory [])))

/-- The entry that some steps lead to, given the directories above, the nearest first. Above the
root is the root. -/
def walk (above : List Entry) (here : Entry) : List String → Option Entry
  | [] => some here
  | step :: rest =>
    match here with
    | .file _ => none
    | .directory entries =>
      if step = ".." then
        match above with
        | [] => walk [] here rest
        | up :: above => walk above up rest
      else (entries.lookup step).bind fun e => walk (here :: above) e rest

/-- The files of a tree, seen from a directory some steps from its root. -/
def files (root : Entry) (current : List String) : Files where
  current := ⟨true, current⟩
  entry? p := walk [] root (if p.absolute then p.steps else current ++ p.steps)

end Entry

end ShellTemplate
