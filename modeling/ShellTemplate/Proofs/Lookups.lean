import ShellTemplate.Proofs.ErrorPlaces

/-!
# Looking up by key, by position and in turn

A dictionary gives the value of the first entry whose key equals the reference; what cannot be a key
is bound by no dictionary. A list, a tuple or a range gives the item at a position; only whole
numbers are positions, and those below zero do not count from the end. A chain asks its members in
turn, which is associative.

* `resolveKey_of_find?`, `resolveKey_of_find?_eq_none`, `resolveKey_of_unhashable` — a key.
* `same_congr_of_quantity` — numbers that denote the same quantity are the same key.
* `resolvePosition_of_lt`, `resolvePosition_of_le`, `resolvePosition_of_neg` — a position.
* `unbound_of_writable`, `unbound_of_obstacle` — a reference without a binding.
* `firstBound_assoc`, `resolveFirst_append`, `resolve_flatten`, `resolver_pair` — chains.
-/

set_option autoImplicit false

namespace ShellTemplate

/-! ## Keys -/

section Keys

variable {entries : List (Value × Value)} {ref v : Value}

theorem resolveKey_of_find? (hkey : ref.unhashable? = none)
    (hfind : Dict.find? entries ref = some v) : resolveKey (.dict entries) ref = .ok v := by
  simp only [resolveKey, Value.subscript, hkey, hfind]

theorem resolveKey_of_find?_eq_none (hkey : ref.unhashable? = none)
    (hfind : Dict.find? entries ref = none) :
    resolveKey (.dict entries) ref = .error (unbound ref) := by
  simp only [resolveKey, Value.subscript, hkey, hfind]
  rfl

theorem resolveKey_of_unhashable {w : Value} (hkey : ref.unhashable? = some w) :
    resolveKey (.dict entries) ref = .error (unbound ref) := by
  simp only [resolveKey, Value.subscript, hkey]
  rfl

theorem Ref.unhashable?_toValue (ref : Ref) : ref.toValue.unhashable? = none := by
  cases ref <;> rfl

theorem unhashable?_of_quantity {q : Quantity} (h : ref.quantity? = some q) :
    ref.unhashable? = none := by
  cases ref with
  | decimal d => cases d <;> first | rfl | cases h
  | bool _ | int _ | float _ => rfl
  | _ => cases h

/-- A key equals a number if it denotes the same quantity. -/
theorem same_of_quantity {w : Value} {q : Quantity} (h : w.quantity? = some q) (key : Value) :
    key.same w = match key.quantity? with
      | some r => r == q
      | none => false := by
  cases w with
  | bool _ | int _ | float _ | decimal _ =>
    cases key with
    | bool _ | int _ | float _ | decimal _ =>
      simp only [Value.same, h]
      generalize Value.quantity? _ = found
      cases found <;> rfl
    | _ => rfl
  | _ => cases h

/-- Numbers that denote the same quantity are the same key. -/
theorem same_congr_of_quantity {x y : Value} {q : Quantity} (hx : x.quantity? = some q)
    (hy : y.quantity? = some q) (key : Value) : key.same x = key.same y := by
  rw [same_of_quantity hx, same_of_quantity hy]

/-- A dictionary with a text for one reference. -/
def holding (ref : Ref) : Value := .dict [(ref.toValue, .str "x")]

theorem resolver_holding (ref : Ref) :
    (Context.mapping (holding ref)).resolver ref = .ok (.str "x") := by
  have hsame : ref.toValue.same ref.toValue = true := by
    cases ref with
    | name name => exact beq_self_eq_true name
    | position n => exact beq_self_eq_true (Quantity.ofInt n)
  exact resolveKey_of_find? ref.unhashable?_toValue (by simp [Dict.find?, hsame])

end Keys

/-! ## Positions -/

section Positions

variable {values : Value} {items : List Value}

theorem position?_of_lt {length n : Nat} (h : n < length) : position? length n = some n := by
  have hnonneg : (0 : Int) ≤ n := by omega
  have hlt : (n : Int) < length := by omega
  simp [position?, hnonneg, hlt]

theorem pick_of_lt {container : Value} {n : Nat} (h : n < items.length)
    (hmax : items.length ≤ maxIndex) : pick container items n = .ok items[n] := by
  have hrange : ¬((n : Int) < -maxIndex - 1 ∨ maxIndex < (n : Int)) := by
    have hmaxIndex : (0 : Int) < maxIndex := by decide
    omega
  simp [pick, hrange, position?_of_lt h, List.getElem?_eq_getElem h]

theorem length_rangeItems (start stop step : Int) :
    (rangeItems start stop step).length = rangeLength start stop step := by
  simp [rangeItems]

theorem length_of_listItems? (hitems : values.listItems? = some items)
    (hmax : items.length ≤ maxIndex) : values.length = .ok items.length := by
  cases values with
  | list xs | tuple xs =>
    cases hitems
    rfl
  | bottomless =>
    cases hitems
    rfl
  | range start stop step =>
    cases hitems
    rw [length_rangeItems] at hmax ⊢
    have hshort : ¬ maxIndex < (rangeLength start stop step : Int) := by omega
    simp [Value.length, hshort]
  | _ => cases hitems

theorem subscript_of_lt (hitems : values.listItems? = some items)
    (hmax : items.length ≤ maxIndex) {n : Nat} (hn : n < items.length) :
    values.subscript (.int n) = .ok items[n] := by
  cases values with
  | list xs | tuple xs =>
    cases hitems
    exact pick_of_lt hn hmax
  | bottomless =>
    cases hitems
    exact pick_of_lt hn hmax
  | range start stop step =>
    cases hitems
    rw [length_rangeItems] at hn
    simp [Value.subscript, Value.subscript.atIndex, Value.index?, position?_of_lt hn, rangeItems]
  | _ => cases hitems

/-- The positions are compared with the length before an item is picked. -/
theorem resolvePosition_natCast (hitems : values.listItems? = some items)
    (hmax : items.length ≤ maxIndex) (n : Nat) :
    resolvePosition values (.int n) =
      if (n : Int) < items.length then values.subscript (.int n)
      else .error (unbound (.int n)) := by
  have hnonneg : ¬ ((n : Int) < 0) := by omega
  simp only [resolvePosition, hnonneg, if_false, length_of_listItems? hitems hmax]
  rfl

theorem resolvePosition_of_lt (hitems : values.listItems? = some items)
    (hmax : items.length ≤ maxIndex) {n : Nat} (hn : n < items.length) :
    resolvePosition values (.int n) = .ok items[n] := by
  rw [resolvePosition_natCast hitems hmax, if_pos (by omega), subscript_of_lt hitems hmax hn]

theorem resolvePosition_of_le (hitems : values.listItems? = some items)
    (hmax : items.length ≤ maxIndex) {n : Nat} (hn : items.length ≤ n) :
    resolvePosition values (.int n) = .error (unbound (.int n)) := by
  rw [resolvePosition_natCast hitems hmax, if_neg (by omega)]

/-- Positions below zero do not count from the end. -/
theorem resolvePosition_of_neg (values : Value) {n : Int} (hn : n < 0) :
    resolvePosition values (.int n) = .error (unbound (.int n)) := by
  simp only [resolvePosition, hn, if_true]

end Positions

/-! ## References without a binding -/

section Unbound

variable {ref : Value}

theorem unbound_of_writable (h : ref.IsWritable) : unbound ref = .unresolved ref none :=
  Error.raised_unresolved h none

theorem unbound_of_obstacle {obstacle : Obstacle} (h : ref.obstacle? = some obstacle) :
    unbound ref = obstacle.error :=
  Error.raised_of_obstacle (by simp [Error.shownValues, h])

/-- Where there is nothing, a reference that cannot be written is not reported either. -/
theorem resolver_empty_obstacle {ref : Ref} {obstacle : Obstacle}
    (h : ref.toValue.obstacle? = some obstacle) :
    (Context.mapping (.dict [])).resolver ref = .error obstacle.error := by
  rw [← unbound_of_obstacle h]
  exact resolveKey_of_find?_eq_none ref.unhashable?_toValue rfl

theorem isWritable_name (name : String) : (Ref.name name).toValue.IsWritable := rfl

theorem lt_length_digits {n k : Nat} (hk : 0 < k) (h : Nat.pow 10 k ≤ n) :
    k < (Number.digits n).length := by
  rw [← Nat.not_le, Number.digits, Nat.length_toDigits_le_iff (by decide) hk]
  exact Nat.not_lt.2 h

/-- A position with more digits than can be written. -/
def overlongPosition : Ref := .position (Nat.pow 10 maxDigits)

theorem obstacle?_position {n : Nat} (h : Nat.pow 10 maxDigits ≤ n) :
    (Ref.position n).toValue.obstacle? = some .digits :=
  if_pos (lt_length_digits (by decide) h)

end Unbound

/-! ## Asking in turn -/

/-- The second result where the first one leaves the reference unbound. -/
def firstBound (first second : Except Error Value) : Except Error Value :=
  match first with
  | .error (.unresolved _ _) => second
  | result => result

theorem firstBound_assoc (r s t : Except Error Value) :
    firstBound (firstBound r s) t = firstBound r (firstBound s t) := by
  cases r with
  | ok v => rfl
  | error e => cases e <;> rfl

theorem firstBound_unbound_left {ref : Value} (h : ref.IsWritable) (second : Except Error Value) :
    firstBound (.error (unbound ref)) second = second := by
  rw [unbound_of_writable h]
  rfl

/-- What cannot be written cannot be reported as unbound, so nobody else is asked for it. -/
theorem firstBound_obstacle_left (obstacle : Obstacle) (second : Except Error Value) :
    firstBound (.error obstacle.error) second = .error obstacle.error := by
  cases obstacle <;> rfl

theorem firstBound_self (r : Except Error Value) : firstBound r r = r := by
  unfold firstBound
  split <;> rfl

theorem resolveFirst_cons (c : Context) (rest : List Context) (ref : Value) :
    Context.resolveFirst (c :: rest) ref =
      firstBound (c.resolve ref) (Context.resolveFirst rest ref) := rfl

theorem resolveFirst_append {ref : Value} (h : ref.IsWritable) (members others : List Context) :
    Context.resolveFirst (members ++ others) ref =
      firstBound (Context.resolveFirst members ref) (Context.resolveFirst others ref) := by
  induction members with
  | nil => exact (firstBound_unbound_left h _).symm
  | cons c members ih =>
    rw [List.cons_append, resolveFirst_cons, resolveFirst_cons, ih, firstBound_assoc]

/-- An object of the caller's own that is a context as it stands. -/
def Context.isCustom : Context → Bool
  | .custom .. => true
  | _ => false

theorem resolveKey_unresolved {values ref q : Value} {index : Option Nat}
    (h : resolveKey values ref = .error (.unresolved q index)) :
    resolveKey values ref = .error (unbound ref) := by
  unfold resolveKey at h ⊢
  split at h
  · cases h
  · next e he =>
    by_cases hunbound : e.isUnbound = true
    · rw [if_pos hunbound]
    · rw [if_neg hunbound] at h
      cases h
      cases partless_subscript values ref _ he

theorem resolvePosition_unresolved {values ref q : Value} {index : Option Nat}
    (h : resolvePosition values ref = .error (.unresolved q index)) :
    resolvePosition values ref = .error (unbound ref) := by
  unfold resolvePosition at h ⊢
  split at h
  · next n =>
    by_cases hneg : n < 0
    · simp only [hneg, if_true]
    · simp only [hneg, if_false] at h ⊢
      rcases except_bind_eq_error.1 h with hlength | ⟨length, hlength, h⟩
      · cases partless_length values _ hlength
      · rw [hlength]
        by_cases hlt : n < (length : Int)
        · rw [if_pos hlt] at h
          cases partless_subscript values _ _ h
        · exact if_neg hlt
  · next hint => simp only

theorem resolveFirst_unresolved {members : List Context} {ref q : Value} {index : Option Nat}
    (h : Context.resolveFirst members ref = .error (.unresolved q index)) :
    Context.resolveFirst members ref = .error (unbound ref) := by
  induction members with
  | nil => rfl
  | cons c members ih =>
    rw [resolveFirst_cons] at h ⊢
    unfold firstBound at h ⊢
    split at h
    · exact ih h
    · next hbound => exact absurd h (hbound q index)

/-- **A reference that is unbound is reported as it was asked for**, unless it is up to an object of
the caller's own to report it. -/
theorem Context.resolve_unresolved {c : Context} (hcustom : c.isCustom = false) {ref q : Value}
    {index : Option Nat} (h : c.resolve ref = .error (.unresolved q index)) :
    c.resolve ref = .error (unbound ref) := by
  cases c with
  | mapping values => exact resolveKey_unresolved h
  | frame values => exact resolveKey_unresolved h
  | sequence values => exact resolvePosition_unresolved h
  | chain members => exact resolveFirst_unresolved h
  | custom => cases hcustom

/-- The same resolver, but an unbound reference is reported by the one that was asked for. -/
def Resolver.asked (resolve : Resolver) : Resolver := fun ref =>
  firstBound (resolve ref) (.error (unbound ref.toValue))

theorem asked_resolver {c : Context} (hcustom : c.isCustom = false) :
    c.resolver.asked = c.resolver := by
  funext ref
  unfold Resolver.asked firstBound
  split
  · next h => exact (Context.resolve_unresolved hcustom h).symm
  · rfl

/-- Of two contexts in a chain the second is asked where the first leaves a reference unbound. -/
theorem resolver_pair (c d : Context) (ref : Ref) :
    (Context.chain [c, d]).resolver ref = firstBound (c.resolver ref) (d.resolver.asked ref) := rfl

end ShellTemplate
