import ShellTemplate.Number.Decimal

/-!
# Atoms

The scalars that can become a word of a command line: a bare name, a text, or a number kept as it
was written.
-/

namespace ShellTemplate

/-- A scalar of a command line. -/
inductive Atom where
  | identifier (name : String)
  | text (value : String)
  | number (text : String)
deriving DecidableEq, Repr, Inhabited

namespace Atom

/-- The unquoted text that an atom stands for. -/
def content : Atom → String
  | .identifier name => name
  | .text value => value
  | .number digits => digits

/-- A number's text denotes a finite decimal number without blanks around it. -/
def WellFormed : Atom → Prop
  | .number digits => Number.isNumeral digits = true
  | .identifier _ | .text _ => True

instance : DecidablePred WellFormed
  | .identifier _ => isTrue trivial
  | .text _ => isTrue trivial
  | .number digits => inferInstanceAs (Decidable (Number.isNumeral digits = true))

/-- The atom of a text read as a number. -/
def number? (s : String) : Option Atom :=
  if Number.isNumeral s then some (.number s) else none

theorem number?_eq_some {s : String} {a : Atom} (h : number? s = some a) :
    a = .number s ∧ a.WellFormed := by
  unfold number? at h
  split at h
  · next valid => exact Option.some.inj h ▸ ⟨rfl, valid⟩
  · cases h

end Atom

end ShellTemplate
