import ShellTemplate.Proofs.Expanding

/-!
# Where an error was met

An error that was met at a part of a template knows the index of the part. Contexts and atoms know
of no parts, so their errors have no index until the expander gives them one. That is why the tokens
of some values that stand further to the right fail in the same way, with the index moved. Only a
context of the caller's own may raise an error that knows of parts, and that error stays as it is.

* `Error.MovedBy` — the same error so many parts further to the right.
* `Context.raises_resolve` — a context leaves a reference unbound, or fails with an error that knows
  of no parts, or with what a context of the caller's own makes of it.
* `placeless_ofValue` — a value that is no atom fails with an error that knows of no parts.
* `displaced_tokensFrom` — values that start further to the right give the same tokens or fail with
  the error moved, unless it comes from a context of the caller's own.
-/

set_option autoImplicit false

namespace ShellTemplate

open Shell

namespace Error

/-- The index of the part at which an error was met. -/
def index? : Error → Option Nat
  | badAtom _ index _ | unresolved _ index | typeMismatch _ _ _ index => index
  | notPart index _ => some index
  | _ => none

/-- Whether an error is one of those that can tell a part. -/
def knowsParts : Error → Bool
  | badAtom .. | unresolved .. | typeMismatch .. | notPart .. => true
  | _ => false

/-- Whether an error says that a reference is unbound. -/
def isUnresolved : Error → Bool
  | unresolved .. => true
  | _ => false

theorem index?_of_not_knowsParts {e : Error} (h : e.knowsParts = false) : e.index? = none := by
  cases e <;> first | rfl | cases h

/-- The same error, met so many parts further to the right. -/
def shift (n : Nat) : Error → Error
  | badAtom value index ref => badAtom value (index.map (· + n)) ref
  | unresolved ref index => unresolved ref (index.map (· + n))
  | typeMismatch ref expected value index => typeMismatch ref expected value (index.map (· + n))
  | notPart index value => notPart (index + n) value
  | e => e

theorem index?_shift (n : Nat) (e : Error) : (e.shift n).index? = e.index?.map (· + n) := by
  cases e <;> rfl

theorem shift_zero (e : Error) : e.shift 0 = e := by
  cases e <;> simp [shift]

theorem exists_location_eq (ref : Option Value) :
    ∃ back, ∀ index : Nat, location (some index) ref = " (part " ++ integerText index ++ back := by
  cases ref with
  | none =>
    refine ⟨")", fun index => ?_⟩
    simp [location, commaSeparated, ← String.toList_inj]
  | some ref =>
    refine ⟨", ref " ++ ref.written ++ ")", fun index => ?_⟩
    simp [location, commaSeparated, ← String.toList_inj]

/-- The wording of an error tells its index, and nothing else in it hangs on the index. -/
theorem exists_message_shift {e : Error} {index : Nat} (h : e.index? = some index) :
    ∃ front back, ∀ n,
      (e.shift n).message = front ++ integerText (index + n : Nat) ++ back := by
  have close : ∀ (front : String) (ref : Option Value), ∃ front' back, ∀ n : Nat,
      front ++ location (some (index + n)) ref = front' ++ integerText (index + n : Nat) ++ back := by
    intro front ref
    obtain ⟨back, hback⟩ := exists_location_eq ref
    refine ⟨front ++ " (part ", back, fun n => ?_⟩
    rw [hback, String.append_assoc, String.append_assoc, String.append_assoc]
  cases e with
  | badAtom value i ref =>
    obtain rfl : i = some index := h
    exact close _ ref
  | unresolved ref i =>
    obtain rfl : i = some index := h
    exact close _ none
  | typeMismatch ref expected value i =>
    obtain rfl : i = some index := h
    exact close _ none
  | notPart i value =>
    obtain rfl : i = index := Option.some.inj h
    refine ⟨"Not a template part at ", ": " ++ value.written, fun n => ?_⟩
    exact String.append_assoc
  | _ => cases h

/-- An error is another one met so many parts further to the right: it has the index that much
greater, and so has its wording. -/
structure MovedBy (e : Error) (n : Nat) (e' : Error) : Prop where
  shift_eq : e' = e.shift n
  index : e'.index? = e.index?.map (· + n)
  wording : ∀ index, e.index? = some index → ∃ front back,
    e.message = front ++ integerText index ++ back ∧
      e'.message = front ++ integerText (index + n : Nat) ++ back

theorem movedBy_shift (n : Nat) (e : Error) : e.MovedBy n (e.shift n) where
  shift_eq := rfl
  index := index?_shift n e
  wording index h := by
    obtain ⟨front, back, hmessage⟩ := exists_message_shift h
    refine ⟨front, back, ?_, hmessage n⟩
    have hzero := hmessage 0
    rwa [shift_zero] at hzero

theorem shift_eq_self {e : Error} (h : e.index? = none) (n : Nat) : e.shift n = e := by
  cases e <;> simp_all [index?, shift]

/-- What keeps an error from being raised does not hang on the index. -/
theorem shift_raised (n : Nat) (e : Error) : (e.shift n).raised = e.raised.shift n := by
  have hshown : (e.shift n).shownValues = e.shownValues := by cases e <;> rfl
  unfold raised
  rw [hshown]
  split
  · next obstacle _ => cases obstacle <;> rfl
  · rfl

/-- An unbound reference is located wherever it was met; any other error can be located further to
the right at once if it has no index. -/
theorem shift_place {e : Error} (h : e.isUnresolved = true ∨ e.index? = none) (n index : Nat) :
    (e.place index).shift n = e.place (index + n) := by
  cases e with
  | unresolved ref i => exact (shift_raised n (unresolved ref (some index))).symm
  | _ => exact shift_eq_self (h.resolve_left nofun) n

theorem shift_locate {e : Error} (h : e.index? = none) (n index : Nat) (ref : Value) :
    (e.locate index ref).shift n = e.locate (index + n) ref := by
  cases e with
  | badAtom value i r => exact (shift_raised n (badAtom value (some index) (some ref))).symm
  | _ => exact shift_eq_self h n

/-- An error is raised, unless a value that it shows cannot be written. -/
theorem raised_eq (e : Error) :
    e.raised = e ∨ e.raised = .tooManyDigits none ∨ e.raised = .nestedTooDeep := by
  unfold raised
  split
  · next obstacle _ => cases obstacle <;> simp [Obstacle.error]
  · exact .inl rfl

theorem index?_raised {e : Error} (h : e.index? = none) : e.raised.index? = none := by
  rcases e.raised_eq with he | he | he <;> rw [he]
  · exact h
  · rfl
  · rfl

end Error

/-! ## The errors of contexts and atoms -/

/-- All errors of a result have some property. -/
def Raises {α : Type} (P : Error → Prop) (r : Except Error α) : Prop := ∀ e, r = .error e → P e

section Raises

variable {α β : Type} {P Q : Error → Prop}

theorem raises_ok (a : α) : Raises P (.ok a : Except Error α) := nofun

theorem raises_error {e : Error} (h : P e) : Raises P (.error e : Except Error α) := by
  rintro _ ⟨⟩
  exact h

theorem Raises.mono {r : Except Error α} (h : Raises P r) (hPQ : ∀ e, P e → Q e) : Raises Q r :=
  fun e he => hPQ e (h e he)

theorem Raises.map {r : Except Error α} (h : Raises P r) (f : α → β) : Raises P (r.map f) :=
  fun e he => h e (except_map_eq_error.1 he)

theorem Raises.bind {r : Except Error α} (h : Raises P r) {f : α → Except Error β}
    (hf : ∀ a, Raises P (f a)) : Raises P (r >>= f) := by
  intro e he
  rcases except_bind_eq_error.1 he with hr | ⟨a, -, ha⟩
  · exact h e hr
  · exact hf a e ha

end Raises

/-- The errors of a result know of no parts. -/
abbrev Partless {α : Type} (r : Except Error α) : Prop := Raises (fun e => e.knowsParts = false) r

theorem partless_length (v : Value) : Partless v.length := by
  unfold Value.length
  cases v with
  | range start stop step =>
    dsimp only
    split
    · exact raises_error rfl
    · exact raises_ok _
  | list | bottomless | tuple | set | dict | str | bytes | bytearray => exact raises_ok _
  | _ => exact raises_error rfl

theorem partless_pick (container : Value) (items : List Value) (i : Int) :
    Partless (pick container items i) := by
  unfold pick
  split
  · exact raises_error rfl
  · split
    · exact raises_ok _
    · exact raises_error rfl

theorem partless_atIndex (container key : Value) {pickAt : Int → Except Error Value}
    (h : ∀ i, Partless (pickAt i)) : Partless (Value.subscript.atIndex container key pickAt) := by
  unfold Value.subscript.atIndex
  split
  · exact h _
  · exact raises_error rfl

theorem partless_subscript (container key : Value) : Partless (container.subscript key) := by
  unfold Value.subscript
  split
  · split
    · exact raises_error rfl
    · split
      · exact raises_ok _
      · exact raises_error rfl
  · exact partless_atIndex _ _ fun i => partless_pick _ _ i
  · exact partless_atIndex _ _ fun i => partless_pick _ _ i
  · exact partless_atIndex _ _ fun i => partless_pick _ _ i
  · exact partless_atIndex _ _ fun i => partless_pick _ _ i
  · exact partless_atIndex _ _ fun i => partless_pick _ _ i
  · exact partless_atIndex _ _ fun i => partless_pick _ _ i
  · refine partless_atIndex _ _ fun i => ?_
    split
    · exact raises_ok _
    · exact raises_error rfl
  · exact raises_error rfl

/-- One of some contexts is of the caller's own and answers a reference with an error. -/
def AnswersWith (leaves : List Context) (ref : Ref) (e : Error) : Prop :=
  ∃ typeName written answer, .custom typeName written answer ∈ leaves ∧ answer ref = .error e

/-- An error of looking a reference up says that it is unbound, or knows of no parts, or is that of
a context of the caller's own. -/
def IsOfLookUp (leaves : List Context) (ref : Ref) (e : Error) : Prop :=
  e.isUnresolved = true ∨ e.knowsParts = false ∨ AnswersWith leaves ref e

/-- A context that is or contains one of the caller's own fails for a reference as that one does,
and not by saying that the reference is unbound. -/
def Context.RaisesOwn (c : Context) (ref : Ref) (e : Error) : Prop :=
  e.isUnresolved = false ∧ AnswersWith c.leaves ref e

section LookUp

variable {leaves : List Context} {ref : Ref}

theorem isOfLookUp_unbound (leaves : List Context) (ref : Ref) :
    IsOfLookUp leaves ref (unbound ref.toValue) := by
  rcases (Error.unresolved ref.toValue none).raised_eq with he | he | he <;> rw [unbound, he]
  · exact .inl rfl
  · exact .inr (.inl rfl)
  · exact .inr (.inl rfl)

theorem IsOfLookUp.mono {e : Error} {others : List Context} (h : IsOfLookUp leaves ref e)
    (hsub : leaves ⊆ others) : IsOfLookUp others ref e := by
  rcases h with h | h | ⟨typeName, written, answer, hmem, h⟩
  · exact .inl h
  · exact .inr (.inl h)
  · exact .inr (.inr ⟨typeName, written, answer, hsub hmem, h⟩)

theorem isOfLookUp_resolveKey (values : Value) :
    Raises (IsOfLookUp leaves ref) (resolveKey values ref.toValue) := by
  unfold resolveKey
  split
  · exact raises_ok _
  · next e he =>
    split
    · exact raises_error (isOfLookUp_unbound _ _)
    · exact raises_error (.inr (.inl (partless_subscript values ref.toValue e he)))

theorem isOfLookUp_resolvePosition (values : Value) :
    Raises (IsOfLookUp leaves ref) (resolvePosition values ref.toValue) := by
  have hunbound : Raises (α := Value) (IsOfLookUp leaves ref) (.error (unbound ref.toValue)) :=
    raises_error (isOfLookUp_unbound _ _)
  unfold resolvePosition
  split
  · split
    · exact hunbound
    · refine ((partless_length values).mono fun e he => .inr (.inl he)).bind fun length => ?_
      split
      · exact (partless_subscript _ _).mono fun e he => .inr (.inl he)
      · exact hunbound
  · exact hunbound

mutual

/-- **A context leaves a reference unbound**, or fails with an error that knows of no parts, or one
of its leaves is a context of the caller's own and fails in its own way. -/
theorem Context.raises_resolve : ∀ (c : Context) (ref : Ref),
    Raises (IsOfLookUp c.leaves ref) (c.resolve ref.toValue)
  | .mapping values, _ => isOfLookUp_resolveKey values
  | .frame values, _ => isOfLookUp_resolveKey values
  | .sequence values, _ => isOfLookUp_resolvePosition values
  | .chain members, ref => Context.raises_resolveFirst members ref
  | .custom typeName written answer, ref => by
    rw [Context.resolve, Ref.ofValue?_toValue]
    exact fun e he => .inr (.inr ⟨typeName, written, answer, List.mem_singleton_self _, he⟩)

theorem Context.raises_resolveFirst : ∀ (members : List Context) (ref : Ref),
    Raises (IsOfLookUp (Context.leavesOf members) ref) (Context.resolveFirst members ref.toValue)
  | [], ref => raises_error (isOfLookUp_unbound _ ref)
  | c :: rest, ref => by
    unfold Context.resolveFirst
    split
    · exact (Context.raises_resolveFirst rest ref).mono fun e he =>
        he.mono (List.subset_append_right c.leaves _)
    · exact (Context.raises_resolve c ref).mono fun e he =>
        he.mono (List.subset_append_left c.leaves _)

end

end LookUp

/-- The errors of a result have no index. -/
abbrev Placeless {α : Type} (r : Except Error α) : Prop := Raises (fun e => e.index? = none) r

theorem placeless_badAtom {α : Type} (v : Value) :
    Placeless (.error (badAtom v) : Except Error α) :=
  raises_error (Error.index?_raised rfl)

theorem placeless_numberOf (v : Value) : Placeless (Atom.numberOf v) := by
  unfold Atom.numberOf
  split
  · split
    · exact raises_ok _
    · exact placeless_badAtom _
  · exact placeless_badAtom _

theorem placeless_ofNumber (v : Value) : Placeless (Atom.ofNumber v) := by
  unfold Atom.ofNumber
  split
  · split
    · exact raises_error rfl
    · exact placeless_numberOf _
  · exact placeless_numberOf _
  · exact placeless_numberOf _
  · exact placeless_badAtom _

theorem placeless_ofValue (v : Value) : Placeless (Atom.ofValue v) := by
  unfold Atom.ofValue
  split
  · exact raises_ok _
  · exact raises_ok _
  · exact placeless_ofNumber _
  · exact placeless_ofNumber _
  · exact placeless_ofNumber _
  · exact placeless_badAtom _

/-! ## Tokens further to the right -/

/-- The reference that a value among the parts uses. -/
def Value.ref? : Value → Option Ref
  | .part p => p.ref?
  | _ => none

/-- One of the values uses a reference. -/
def Uses (items : List Value) (ref : Ref) : Prop := ∃ v ∈ items, v.ref? = some ref

/-- A result against that of the same so many parts further to the right: the same, or an error that
is moved, or one of some errors that pass through and stay as they are. -/
inductive Displaced {α : Type} (passes : Error → Prop) (n : Nat) :
    Except Error α → Except Error α → Prop where
  | ok (a : α) : Displaced passes n (.ok a) (.ok a)
  | moved (e : Error) : Displaced passes n (.error e) (.error (e.shift n))
  | passed {e : Error} (own : passes e) : Displaced passes n (.error e) (.error e)

section Displaced

variable {α β : Type} {passes : Error → Prop} {n : Nat} {r r' : Except Error α}

theorem displaced_mapError {f : Error → Error} (r : Except Error α) {g : Error → Error}
    (h : Raises (fun e => (f e).shift n = g e ∨ f e = g e ∧ passes (f e)) r) :
    Displaced passes n (r.mapError f) (r.mapError g) := by
  cases r with
  | ok a => exact .ok a
  | error e =>
    rcases h e rfl with hmoved | ⟨hsame, hpasses⟩
    · rw [Except.mapError, Except.mapError, ← hmoved]
      exact .moved (f e)
    · rw [Except.mapError, Except.mapError, ← hsame]
      exact .passed hpasses

theorem Displaced.mono {others : Error → Prop} (h : Displaced passes n r r')
    (hsub : ∀ e, passes e → others e) : Displaced others n r r' := by
  cases h with
  | ok a => exact .ok a
  | moved e => exact .moved e
  | passed own => exact .passed (hsub _ own)

theorem Displaced.map (h : Displaced passes n r r') (f : α → β) :
    Displaced passes n (r.map f) (r'.map f) := by
  cases h with
  | ok a => exact .ok (f a)
  | moved e => exact .moved e
  | passed own => exact .passed own

theorem Displaced.bind (h : Displaced passes n r r') {f g : α → Except Error β}
    (hfg : ∀ a, Displaced passes n (f a) (g a)) : Displaced passes n (r >>= f) (r' >>= g) := by
  cases h with
  | ok a => exact hfg a
  | moved e => exact .moved e
  | passed own => exact .passed own

theorem displaced_mapM {f g : α → Except Error β} (h : ∀ a, Displaced passes n (f a) (g a))
    (xs : List α) : Displaced passes n (xs.mapM f) (xs.mapM g) := by
  induction xs with
  | nil => exact .ok []
  | cons x xs ih =>
    rw [List.mapM_cons, List.mapM_cons]
    exact (h x).bind fun y => ih.bind fun ys => .ok (y :: ys)

theorem displaced_raised (e : Error) :
    Displaced passes n (.error e.raised : Except Error α) (.error (e.shift n).raised) := by
  rw [Error.shift_raised]
  exact .moved e.raised

end Displaced

/-- The errors of looking a reference up say that it is unbound, or have no index, or are among
some that pass through. -/
abbrev Resolver.Passes (resolve : Resolver) (passes : Error → Prop) (ref : Ref) : Prop :=
  Raises (fun e => e.isUnresolved = true ∨ e.index? = none ∨ e.isUnresolved = false ∧ passes e)
    (resolve ref)

section Tokens

variable {resolve : Resolver} {passes : Error → Prop} {n : Nat}

theorem displaced_lookUp {ref : Ref} (h : resolve.Passes passes ref) (index : Nat) :
    Displaced passes n (lookUp resolve index ref) (lookUp resolve (index + n) ref) := by
  refine displaced_mapError _ (h.mono fun e he => ?_)
  rcases he with he | he | ⟨hunresolved, hpasses⟩
  · exact .inl (Error.shift_place (.inl he) n index)
  · exact .inl (Error.shift_place (.inr he) n index)
  · have hplace : ∀ i, e.place i = e := by
      intro i
      cases e <;> first | rfl | cases hunresolved
    exact .inr ⟨(hplace index).trans (hplace _).symm, (hplace index).symm ▸ hpasses⟩

theorem displaced_scalarText (index : Nat) (ref : Ref) (v : Value) :
    Displaced passes n (scalarText index ref v) (scalarText (index + n) ref v) :=
  displaced_mapError _ (((placeless_ofValue v).map _).mono fun _ he =>
    .inl (Error.shift_locate he n index ref.toValue))

theorem displaced_partTexts {part : Part}
    (h : ∀ ref, part.ref? = some ref → resolve.Passes passes ref) (index : Nat) :
    Displaced passes n (partTexts resolve index part) (partTexts resolve (index + n) part) := by
  cases part with
  | literal a => exact .ok _
  | placeholder place =>
    refine (displaced_lookUp (h place.ref rfl) index).bind fun value => ?_
    split
    · exact displaced_mapM (displaced_scalarText index place.ref) _
    · exact displaced_raised _
    · exact displaced_raised _
    · exact (displaced_scalarText index place.ref value).map _

theorem displaced_tokenOfValue {v : Value}
    (h : ∀ ref, v.ref? = some ref → resolve.Passes passes ref) (style : Style) (n index : Nat) :
    Displaced passes n (tokenOfValue style resolve index v)
      (tokenOfValue style resolve (index + n) v) := by
  unfold tokenOfValue
  split
  · exact (displaced_partTexts h index).map _
  · exact displaced_raised _

/-- **Values further to the right** give the same tokens, or fail with the error moved, or with one
that passes through. -/
theorem displaced_tokensFrom {items : List Value}
    (h : ∀ ref, Uses items ref → resolve.Passes passes ref) (style : Style) (n index : Nat) :
    Displaced passes n (tokensFrom style resolve index items)
      (tokensFrom style resolve (index + n) items) := by
  induction items generalizing index with
  | nil => exact .ok []
  | cons v rest ih =>
    have hfirst : ∀ ref, v.ref? = some ref → resolve.Passes passes ref :=
      fun ref href => h ref ⟨v, List.mem_cons_self, href⟩
    have hrest : ∀ ref, Uses rest ref → resolve.Passes passes ref := by
      rintro ref ⟨w, hw, href⟩
      exact h ref ⟨w, List.mem_cons_of_mem v hw, href⟩
    have hnext : index + n + 1 = index + 1 + n := by omega
    simp only [tokensFrom, hnext]
    exact (displaced_tokenOfValue hfirst style n index).bind fun t =>
      (ih hrest (index + 1)).bind fun ts => .ok (t :: ts)

end Tokens

/-- In a context only errors of the caller's own pass through. -/
theorem Context.passes_resolver (c : Context) (ref : Ref) :
    c.resolver.Passes (c.RaisesOwn ref) ref := by
  intro e he
  rcases c.raises_resolve ref e he with h | h | h
  · exact .inl h
  · exact .inr (.inl (Error.index?_of_not_knowsParts h))
  · cases hunresolved : e.isUnresolved with
    | true => exact .inl rfl
    | false => exact .inr (.inr ⟨rfl, hunresolved, h⟩)

end ShellTemplate
