import ShellTemplate.Value.Items

/-!
# Resolving references

A context gives a value for a reference or says that it is unbound.

* `Context.resolve` — the value of a reference.
* `Context.ofValue` — the context that a value serves as.
* `Frame.bindings` — the variables that are visible in a frame.
-/

namespace ShellTemplate

/-- The errors of a look-up that mean that the reference is unbound: there is no such key, or the
values cannot be looked up by it at all. -/
def Error.isUnbound (e : Error) : Bool :=
  match e with
  | .missingKey _ => true
  | e => e.families.contains .type

/-- The refusal of a reference that has no binding, without a place. -/
def unbound (ref : Value) : Error := (Error.unresolved ref none).raised

/-- Looks a reference up by key. -/
def resolveKey (values ref : Value) : Except Error Value :=
  match values.subscript ref with
  | .ok v => .ok v
  | .error e => .error (if e.isUnbound then unbound ref else e)

/-- Looks a reference up by position; positions are the whole numbers from zero up to the
length. -/
def resolvePosition (values ref : Value) : Except Error Value :=
  match ref with
  | .int n =>
    if n < 0 then .error (unbound ref)
    else do
      let length ← values.length
      if n < length then values.subscript ref else .error (unbound ref)
  | _ => .error (unbound ref)

/-- The reference that a value is. -/
def Ref.ofValue? : Value → Option Ref
  | .str s => some (.name s)
  | .int n => if n < 0 then none else some (.position n.toNat)
  | _ => none

@[simp] theorem Ref.ofValue?_toValue (r : Ref) : Ref.ofValue? r.toValue = some r := by
  cases r <;> simp [Ref.toValue, Ref.ofValue?]

mutual

/-- The value that a context gives for a reference. A context of the caller's own is only asked for
what a part can refer to. -/
def Context.resolve : Context → Value → Except Error Value
  | .mapping values, ref | .frame values, ref => resolveKey values ref
  | .sequence values, ref => resolvePosition values ref
  | .chain members, ref => Context.resolveFirst members ref
  | .custom _ _ answer, ref =>
    match Ref.ofValue? ref with
    | some r => answer r
    | none => .error (unbound ref)
termination_by structural c => c

/-- The value that the first of the contexts gives that binds the reference. -/
def Context.resolveFirst : List Context → Value → Except Error Value
  | [], ref => .error (unbound ref)
  | c :: rest, ref =>
    match c.resolve ref with
    | .error (.unresolved _ _) => Context.resolveFirst rest ref
    | result => result
termination_by structural members => members

end

mutual

/-- The contexts without members that a context is made of, in the order in which they are asked. -/
def Context.leaves : Context → List Context
  | .mapping values => [.mapping values]
  | .frame values => [.frame values]
  | .sequence values => [.sequence values]
  | .custom typeName written answer => [.custom typeName written answer]
  | .chain members => Context.leavesOf members
termination_by structural c => c

/-- The leaves of some contexts. -/
def Context.leavesOf : List Context → List Context
  | [] => []
  | c :: rest => c.leaves ++ Context.leavesOf rest
termination_by structural members => members

end

/-- What gives a value for each reference or says why it has none. -/
abbrev Resolver := Ref → Except Error Value

/-- The values that a context gives for references. -/
def Context.resolver (c : Context) : Resolver := fun ref => c.resolve ref.toValue

/-- The context that binds nothing. -/
def Context.empty : Context := .mapping (.dict [])

/-- The context that a value serves as: nothing binds nothing, a dictionary is looked up by key, a
list, a tuple, a range or a byte array by position, and a context is itself. -/
def Context.ofValue : Value → Except Error Context
  | .null => .ok .empty
  | .context c => .ok c
  | .dict entries => .ok (.mapping (.dict entries))
  | .list xs => .ok (.sequence (.list xs))
  | .bottomless => .ok (.sequence .bottomless)
  | .tuple xs => .ok (.sequence (.tuple xs))
  | .range start stop step => .ok (.sequence (.range start stop step))
  | .bytearray bs => .ok (.sequence (.bytearray bs))
  | v => .error (.notContext v.typeName)

/-- The chain over the contexts that some values serve as. -/
def Context.chainOf (values : List Value) : Except Error Context :=
  (values.mapM Context.ofValue).map .chain

/-- The variables of a caller. -/
structure Frame where
  globals : List (String × Value)
  locals : List (String × Value)

/-- The variables that are visible in a frame: the local ones hide the global ones. -/
def Frame.bindings (f : Frame) : List (Value × Value) :=
  Dict.union (Dict.ofNamed f.globals) (Dict.ofNamed f.locals)

/-- The context of the variables that are visible in a frame. -/
def Frame.context (f : Frame) : Context := .frame (.dict f.bindings)

/-- The context of the frame so many calls above the innermost one; the frames are listed from the
outermost on. -/
def Frame.capture (frames : List Frame) (depth : Nat) : Option Context :=
  frames.reverse[depth]?.map Frame.context

end ShellTemplate
