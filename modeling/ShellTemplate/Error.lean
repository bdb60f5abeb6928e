import ShellTemplate.Value.Written

/-!
# Errors

What the errors say. `Error.message` is the one place that words an error, and `Error.families` says
which broad handlers catch it. A message shows the values that the error names, so making an error
can itself fail: `Error.raised` is what comes of raising one.
-/

namespace ShellTemplate

open Text

/-- The wording of a fault. -/
def SyntaxFault.message : SyntaxFault → String
  | malformedPlaceholder => "Malformed placeholder"
  | placeholderNotAlone => "Placeholder must be a whole word"
  | quoteNotAlone => "Quoted text must be a whole word"
  | unterminatedQuote => "Unterminated quote"
  | looseBrace brace => "Unexpected " ++ quotation (String.singleton brace)
  | quoteInWord => "Quote inside a bare word"
  | emptyName => "Empty reference name"
  | negativePosition position => "Negative reference position " ++ integerText position
  | invalidReference value => "Invalid reference " ++ value.written
  | other text => text

/-- The broad families of errors that a caller may handle together. -/
inductive ErrorFamily where
  | template
  | lookup
  | type
  | value
deriving DecidableEq, Repr

namespace Error

/-- Where an error was met: a part, a reference, or both. -/
def location (index : Option Nat) (ref : Option Value) : String :=
  let bits := (index.map fun i => "part " ++ integerText i).toList ++
    (ref.map fun r => "ref " ++ r.written).toList
  if bits.isEmpty then "" else " (" ++ commaSeparated bits ++ ")"

/-- What an indexed collection is called where an index is out of its range. -/
def indexed (typeName : String) : String :=
  if typeName = "str" then "string "
  else if typeName = "range" then "range object "
  else if typeName = "bytes" then ""
  else typeName ++ " "

/-- The wording of an error. -/
def message : Error → String
  | badAtom value index ref =>
    "Not a valid atom: " ++ value.written ++ " of type " ++ value.typeName ++ location index ref
  | unresolved ref index => "Unresolved reference: " ++ ref.written ++ location index none
  | typeMismatch ref expected value index =>
    "Expected a " ++ expected ++ " for " ++ ref.written ++ ", got " ++ value.typeName ++
      location index none
  | templateFault fault _ column =>
    fault.message ++ (match column with
      | some c => " at column " ++ integerText c
      | none => "")
  | config path fault => "Invalid config " ++ path ++ ": " ++ fault.message
  | notText typeName => "Template must be a string, got " ++ typeName
  | notContext typeName => "Cannot use " ++ typeName ++ " as an expansion context"
  | notPart index value => "Not a template part at " ++ integerText index ++ ": " ++ value.written
  | notIterable typeName => "'" ++ typeName ++ "' object is not iterable"
  | notSubscriptable typeName => "'" ++ typeName ++ "' object is not subscriptable"
  | badSubscript container key =>
    container ++ " indices must be integers or slices, not " ++ key
  | noLength typeName => "object of type '" ++ typeName ++ "' has no len()"
  | unhashable (.decimal _) => "Cannot hash a signaling NaN value"
  | unhashable value => "unhashable type: '" ++ value.typeName ++ "'"
  | missingKey key => key.written
  | indexOutOfRange typeName => indexed typeName ++ "index out of range"
  | indexTooLarge => "cannot fit 'int' into an index-sized integer"
  | lengthTooLarge => "Python int too large to convert to C ssize_t"
  | unknownStyle name => "Unknown quote style: " ++ quotation name
  | tooManyDigits count =>
    "Exceeds the limit (" ++ integerText maxDigits ++ " digits) for integer string conversion" ++
      (match count with
        | some n => ": value has " ++ integerText n ++ " digits"
        | none => "") ++ "; use sys.set_int_max_str_digits() to increase the limit"
  | nestedTooDeep => "maximum recursion depth exceeded while getting the repr of an object"
  | zeroStep => "range() arg 3 must not be zero"
  | shallowStack => "call stack is not deep enough"
  | badNumeral text => "could not convert string to float: " ++ quotation text
  | isDirectory path => "[Errno 21] Is a directory: " ++ quotation path
  | notUtf8 fault => fault.message
  | scalar fault => fault.message
  | malformedPage detail => detail
  | foreign text => text

/-- The families that an error belongs to. -/
def families : Error → List ErrorFamily
  | badAtom .. | typeMismatch .. => [.template, .type]
  | unresolved .. => [.template, .lookup]
  | templateFault .. => [.template, .value]
  | config .. => [.template]
  | notText _ | notContext _ | notPart .. | notIterable _ | notSubscriptable _ | badSubscript ..
  | noLength _ | unhashable _ => [.type]
  | missingKey _ | indexOutOfRange _ | indexTooLarge => [.lookup]
  | unknownStyle _ | tooManyDigits _ | zeroStep | shallowStack | badNumeral _ | notUtf8 _ =>
    [.value]
  | scalar (.digits ..) | scalar (.float _) | scalar (.date _) | scalar .codePoint => [.value]
  | scalar .noDigits | scalar (.truth _) => [.lookup]
  | scalar (.noText _) => [.type]
  | scalar .noDate | scalar .tooLarge | nestedTooDeep | lengthTooLarge | isDirectory _
  | malformedPage _ | foreign _ => []

/-- The values that the wording of an error shows, in the order in which they are written. -/
def shownValues : Error → List Value
  | badAtom value _ ref => value :: ref.toList
  | unresolved ref _ | typeMismatch ref _ _ _ => [ref]
  | templateFault (.negativePosition position) _ _ => [.int position]
  | templateFault (.invalidReference value) _ _ => [value]
  | notPart _ value => [value]
  | _ => []

/-- What comes of raising an error: the error itself, or that of writing a value that it shows. -/
def raised (e : Error) : Error :=
  match e.shownValues.findSome? Value.obstacle? with
  | some obstacle => obstacle.error
  | none => e

theorem raised_of_writable {e : Error} (h : ∀ v ∈ e.shownValues, v.IsWritable) : e.raised = e := by
  have none := List.findSome?_eq_none_iff.2 h
  simp [raised, none]

theorem raised_of_obstacle {e : Error} {obstacle : Obstacle}
    (h : e.shownValues.findSome? Value.obstacle? = some obstacle) : e.raised = obstacle.error := by
  simp [raised, h]

/-- An error that was raised and is not one of writing shows only what can be written. -/
theorem eq_of_raised_eq {e e' : Error} (h : e.raised = e') (hwritten : e'.shownValues ≠ []) :
    e = e' ∧ ∀ v ∈ e'.shownValues, v.IsWritable := by
  unfold raised at h
  split at h
  · next obstacle _ =>
    subst h
    cases obstacle <;> exact absurd rfl hwritten
  · next hnone =>
    subst h
    exact ⟨rfl, List.findSome?_eq_none_iff.1 hnone⟩

section Writable

variable {value ref : Value}

theorem raised_badAtom (h : value.IsWritable) (index : Option Nat) :
    (badAtom value index none).raised = badAtom value index none :=
  raised_of_writable (List.forall_mem_singleton.2 h)

theorem raised_badAtom_ref (h : value.IsWritable) (href : ref.IsWritable) (index : Option Nat) :
    (badAtom value index (some ref)).raised = badAtom value index (some ref) :=
  raised_of_writable (List.forall_mem_cons.2 ⟨h, List.forall_mem_singleton.2 href⟩)

theorem raised_unresolved (h : ref.IsWritable) (index : Option Nat) :
    (unresolved ref index).raised = unresolved ref index :=
  raised_of_writable (List.forall_mem_singleton.2 h)

theorem raised_typeMismatch (h : ref.IsWritable) (expected : String) (index : Option Nat) :
    (typeMismatch ref expected value index).raised = typeMismatch ref expected value index :=
  raised_of_writable (List.forall_mem_singleton.2 h)

end Writable

/-- What comes of locating a value that is no atom at a part of a template and at the reference that
gave it; any other error stays. -/
def locate (index : Nat) (ref : Value) : Error → Error
  | badAtom value _ _ => (badAtom value (some index) (some ref)).raised
  | e => e

/-- What comes of locating an unbound reference at a part of a template; any other error stays. -/
def place (index : Nat) : Error → Error
  | unresolved ref _ => (unresolved ref (some index)).raised
  | e => e

end Error

end ShellTemplate
