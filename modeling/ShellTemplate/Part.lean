import ShellTemplate.Atom

/-!
# Parts of a template

A template is a sequence of parts. A part is a literal atom, or a placeholder for a scalar or a list
that the context of an expansion provides; a placeholder's value is quoted or inserted verbatim.

* `Part.references` — the references that a list of parts uses, in the order of their first use.
-/

namespace ShellTemplate

/-- What a placeholder refers to: a name or a position. -/
inductive Ref where
  | name (name : String)
  | position (index : Nat)
deriving DecidableEq, Repr, Inhabited

/-- A name that is referred to is not empty. -/
def Ref.WellFormed : Ref → Prop
  | .name s => s ≠ ""
  | .position _ => True

instance : DecidablePred Ref.WellFormed
  | .name s => inferInstanceAs (Decidable (s ≠ ""))
  | .position _ => isTrue trivial

/-- A place for a value: whether it takes a list, and whether the value is inserted verbatim. -/
structure Placeholder where
  verbatim : Bool
  list : Bool
  ref : Ref
deriving DecidableEq, Repr, Inhabited

/-- A part of a template. -/
inductive Part where
  | literal (atom : Atom)
  | placeholder (place : Placeholder)
deriving DecidableEq, Repr, Inhabited

namespace Part

/-- A part that its checked constructors build. -/
def WellFormed : Part → Prop
  | literal atom => atom.WellFormed
  | placeholder place => place.ref.WellFormed

instance : DecidablePred WellFormed
  | literal atom => inferInstanceAs (Decidable atom.WellFormed)
  | placeholder place => inferInstanceAs (Decidable place.ref.WellFormed)

/-- The reference of a placeholder. -/
def ref? : Part → Option Ref
  | literal _ => none
  | placeholder place => some place.ref

/-- The references of the parts, each where it first occurs. -/
def references (parts : List Part) : List Ref :=
  (parts.filterMap ref?).foldl (fun seen r => if r ∈ seen then seen else seen ++ [r]) []

end Part

end ShellTemplate
