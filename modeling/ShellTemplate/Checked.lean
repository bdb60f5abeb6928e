import ShellTemplate.Error

/-!
# Checked construction of atoms and parts

Atoms and parts are built from values of any type; what does not fit is refused with the error that
names it. Everything built here is well-formed.

* `Atom.ofValue` — the atom that a scalar value is.
* `Part.literalOf`, `Part.placeholderOf` — the parts over a value.
-/

namespace ShellTemplate

open Number

/-- The refusal of a value that is no scalar, without a place. -/
def badAtom (v : Value) : Error := (Error.badAtom v none none).raised

/-- The identifier of a text. -/
def Atom.identifierOf : Value → Except Error Atom
  | .str s => .ok (.identifier s)
  | v => .error (badAtom v)

/-- The text atom of a text. -/
def Atom.textOf : Value → Except Error Atom
  | .str s => .ok (.text s)
  | v => .error (badAtom v)

/-- The number atom of a text that denotes a finite decimal number. -/
def Atom.numberOf : Value → Except Error Atom
  | .str s =>
    match Atom.number? s with
    | some a => .ok a
    | none => .error (badAtom (.str s))
  | v => .error (badAtom v)

theorem Atom.numberOf_str (s : String) :
    Atom.numberOf (.str s) = if isNumeral s then .ok (.number s) else .error (badAtom (.str s)) := by
  by_cases h : isNumeral s = true <;> simp [Atom.numberOf, Atom.number?, h]

/-- The number atom of a number, which keeps the number's own text; a truth value is no number. -/
def Atom.ofNumber : Value → Except Error Atom
  | .int n =>
    if maxDigits < (digits n.natAbs).length then .error (.tooManyDigits none)
    else Atom.numberOf (.str (integerText n))
  | .float x => Atom.numberOf (.str (String.ofList x.toChars))
  | .decimal d => Atom.numberOf (.str (String.ofList d.toChars))
  | v => .error (badAtom v)

/-- The atom that a scalar value is: an atom is itself, a text becomes a text atom, a number becomes
a number atom. -/
def Atom.ofValue : Value → Except Error Atom
  | .atom a => .ok a
  | .str s => .ok (.text s)
  | .int n => Atom.ofNumber (.int n)
  | .float x => Atom.ofNumber (.float x)
  | .decimal d => Atom.ofNumber (.decimal d)
  | v => .error (badAtom v)

/-- The unquoted text of an atom given as a value. -/
def Atom.contentOf : Value → Except Error String
  | .atom a => .ok a.content
  | v => .error (badAtom v)

/-- The literal over an atom. -/
def Part.literalOf : Value → Except Error Part
  | .atom a => .ok (.literal a)
  | v => .error (badAtom v)

/-- A fault of a reference, which has no place in a template. -/
def badRef (fault : SyntaxFault) : Error := (Error.templateFault fault "" none).raised

/-- The reference that a value is: a name that is not empty or a position that is not negative. -/
def Ref.ofValue : Value → Except Error Ref
  | .str s => if s.isEmpty then .error (badRef .emptyName) else .ok (.name s)
  | .int n => if n < 0 then .error (badRef (.negativePosition n)) else .ok (.position n.toNat)
  | v => .error (badRef (.invalidReference v))

/-- The placeholder for a reference given as a value. -/
def Part.placeholderOf (verbatim list : Bool) (ref : Value) : Except Error Part :=
  (Ref.ofValue ref).map fun r => .placeholder ⟨verbatim, list, r⟩

/-- The literal of the atom that a scalar value is. -/
def Part.literalOfScalar (v : Value) : Except Error Part := (Atom.ofValue v).map .literal

end ShellTemplate
