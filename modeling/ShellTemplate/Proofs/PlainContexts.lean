import ShellTemplate.Proofs.AsciiRuns
import ShellTemplate.Proofs.Expanding
import ShellTemplate.Proofs.Lookups

/-!
# What dictionaries, lists, tuples and ranges offer

A dictionary, a list, a tuple or a range serves as a context that offers its values. Looking a
reference up in it either gives one of these values or leaves the reference unbound; there is no
third way. And a value that can be written is an atom or is refused as none.

* `Offers.resolve` — a reference is given an offered value or is unbound.
* `isWritable_int_iff` — a whole number can be written if it has few enough digits.
* `isWritable_of_mem_listItems` — the items of a value that can be written can be written too.
* `exists_badAtom` — such a value that is no atom is refused for being none.
-/

set_option autoImplicit false

namespace ShellTemplate

open Number

/-! ## Offered values -/

/-- The values that a dictionary, a list, a tuple or a range offers. Nothing that is looked up by
position is longer than the greatest index. -/
inductive Offers : Value → List Value → Prop where
  | dict (entries : List (Value × Value)) : Offers (.dict entries) (entries.map Prod.snd)
  | list {items : List Value} (length_le : items.length ≤ maxIndex) : Offers (.list items) items
  | tuple {items : List Value} (length_le : items.length ≤ maxIndex) : Offers (.tuple items) items
  | range {start stop step : Int} (length_le : rangeLength start stop step ≤ maxIndex) :
    Offers (.range start stop step) (rangeItems start stop step)

theorem find?_mem {entries : List (Value × Value)} {key v : Value}
    (h : Dict.find? entries key = some v) : v ∈ entries.map Prod.snd := by
  obtain ⟨entry, hentry, rfl⟩ := Option.map_eq_some_iff.1 h
  exact List.mem_map_of_mem (List.mem_of_find?_eq_some hentry)

theorem resolveKey_dict (entries : List (Value × Value)) (ref : Ref) :
    (∃ v ∈ entries.map Prod.snd, resolveKey (.dict entries) ref.toValue = .ok v) ∨
      resolveKey (.dict entries) ref.toValue = .error (unbound ref.toValue) := by
  cases hfind : Dict.find? entries ref.toValue with
  | some v => exact Or.inl ⟨v, find?_mem hfind, resolveKey_of_find? ref.unhashable?_toValue hfind⟩
  | none => exact Or.inr (resolveKey_of_find?_eq_none ref.unhashable?_toValue hfind)

/-- A position up to the length is looked up, everything else is unbound. -/
theorem resolvePosition_of_listItems? {values : Value} {items : List Value}
    (hitems : values.listItems? = some items) (hmax : items.length ≤ maxIndex) (ref : Ref) :
    (∃ v ∈ items, resolvePosition values ref.toValue = .ok v) ∨
      resolvePosition values ref.toValue = .error (unbound ref.toValue) := by
  cases ref with
  | name s => exact Or.inr rfl
  | position n =>
    rcases Nat.lt_or_ge n items.length with hn | hn
    · exact Or.inl ⟨items[n], List.getElem_mem hn, resolvePosition_of_lt hitems hmax hn⟩
    · exact Or.inr (resolvePosition_of_le hitems hmax hn)

/-- **A reference is given an offered value or is unbound.** -/
theorem Offers.resolve {v : Value} {values : List Value} {context : Context} (h : Offers v values)
    (hcontext : Context.ofValue v = .ok context) (ref : Ref) :
    (∃ w ∈ values, context.resolver ref = .ok w) ∨
      context.resolver ref = .error (unbound ref.toValue) := by
  cases h with
  | dict entries =>
    cases hcontext
    exact resolveKey_dict entries ref
  | list length_le =>
    cases hcontext
    exact resolvePosition_of_listItems? rfl length_le ref
  | tuple length_le =>
    cases hcontext
    exact resolvePosition_of_listItems? rfl length_le ref
  | range length_le =>
    cases hcontext
    rw [← length_rangeItems] at length_le
    exact resolvePosition_of_listItems? rfl length_le ref

/-! ## Values that can be written -/

theorem integerObstacle?_eq_none_iff {n : Int} :
    integerObstacle? n = none ↔ (digits n.natAbs).length ≤ maxDigits := by
  simp [integerObstacle?]

theorem isWritable_int_iff {n : Int} :
    (Value.int n).IsWritable ↔ (digits n.natAbs).length ≤ maxDigits :=
  integerObstacle?_eq_none_iff

theorem obstacleOfItems?_eq_none_iff {items : List Value} :
    Value.obstacleOfItems? items = none ↔ ∀ v ∈ items, v.IsWritable := by
  induction items with
  | nil => simp [Value.obstacleOfItems?]
  | cons v items ih => simp [Value.obstacleOfItems?, Value.IsWritable, ih]

/-- The items of a range lie between its start and its stop. -/
theorem natAbs_rangeItem_le {start stop step : Int} {i : Nat}
    (h : i < rangeLength start stop step) :
    (start + i * step).natAbs ≤ start.natAbs ∨ (start + i * step).natAbs ≤ stop.natAbs := by
  unfold rangeLength at h
  split_ifs at h with hup hlt hdown hgt
  · have hle : (i : Int) ≤ (stop - start - 1) / step := by omega
    have hmul : i * step ≤ stop - start - 1 :=
      Int.le_trans (Int.mul_le_mul_of_nonneg_right hle (by omega)) (Int.ediv_mul_le _ (by omega))
    have hnonneg : 0 ≤ i * step := Int.mul_nonneg (Int.natCast_nonneg i) (by omega)
    omega
  · omega
  · have hpos : 0 < -step := by omega
    have hle : (i : Int) ≤ (start - stop - 1) / -step := by omega
    have hmul : i * -step ≤ start - stop - 1 :=
      Int.le_trans (Int.mul_le_mul_of_nonneg_right hle (by omega)) (Int.ediv_mul_le _ (by omega))
    have hnonneg : 0 ≤ i * -step := Int.mul_nonneg (Int.natCast_nonneg i) (by omega)
    rw [Int.mul_neg] at hmul hnonneg
    omega
  · omega
  · omega

theorem length_digits_mono {m n : Nat} (h : m ≤ n) :
    (digits m).length ≤ (digits n).length := by
  have hpos : 0 < (digits n).length := List.length_pos_iff.2 (digits_ne_nil n)
  have hlt : n < 10 ^ (digits n).length := (Nat.length_toDigits_le_iff (by decide) hpos).1 le_rfl
  exact (Nat.length_toDigits_le_iff (by decide) hpos).2 (h.trans_lt hlt)

/-- The items of a list, a tuple or a range that can be written can be written. -/
theorem isWritable_of_mem_listItems {v w : Value} {items : List Value} (h : v.IsWritable)
    (hitems : v.listItems? = some items) (hw : w ∈ items) : w.IsWritable := by
  unfold Value.listItems? at hitems
  split at hitems
  · cases hitems
    exact obstacleOfItems?_eq_none_iff.1 h w hw
  · cases hitems
    exact obstacleOfItems?_eq_none_iff.1 h w hw
  · cases h
  · next start stop step =>
    cases hitems
    obtain ⟨i, hi, rfl⟩ := List.mem_map.1 hw
    have hall := List.findSome?_eq_none_iff.1 (show rangeObstacle? start stop step = none from h)
    have hends : start ∈ (if step = 1 then [start, stop] else [start, stop, step]) ∧
        stop ∈ (if step = 1 then [start, stop] else [start, stop, step]) := by
      split <;> simp
    have hstart := integerObstacle?_eq_none_iff.1 (hall start hends.1)
    have hstop := integerObstacle?_eq_none_iff.1 (hall stop hends.2)
    apply isWritable_int_iff.2
    rcases natAbs_rangeItem_le (List.mem_range.1 hi) with hbound | hbound
    · exact (length_digits_mono hbound).trans hstart
    · exact (length_digits_mono hbound).trans hstop
  · cases hitems

theorem badAtom_of_writable {v : Value} (h : v.IsWritable) : badAtom v = .badAtom v none none :=
  Error.raised_badAtom h none

theorem eq_badAtom_of_numberOf {v : Value} {e : Error} (h : Atom.numberOf v = .error e) :
    e = badAtom v := by
  unfold Atom.numberOf at h
  split at h
  · split at h
    · cases h
    · cases h
      rfl
  · cases h
    rfl

/-- **A value that is no atom is refused for being none**, if it can be written. -/
theorem exists_badAtom {v : Value} {e : Error} (hwritable : v.IsWritable)
    (h : Atom.ofValue v = .error e) : ∃ w, w.IsWritable ∧ e = .badAtom w none none := by
  have hnumber : ∀ s, Atom.numberOf (.str s) = .error e →
      ∃ w, w.IsWritable ∧ e = .badAtom w none none := by
    intro s hs
    have hs' : (Value.str s).IsWritable := rfl
    exact ⟨.str s, hs', (eq_badAtom_of_numberOf hs).trans (badAtom_of_writable hs')⟩
  unfold Atom.ofValue at h
  split at h
  · cases h
  · cases h
  · next n =>
    have hn : ¬maxDigits < (digits n.natAbs).length := not_lt.2 (isWritable_int_iff.1 hwritable)
    simp only [Atom.ofNumber, hn, if_false] at h
    exact hnumber _ h
  · exact hnumber _ h
  · exact hnumber _ h
  · cases h
    exact ⟨_, hwritable, badAtom_of_writable hwritable⟩

/-- What is refused for being no atom can be written, and the refusal knows of no parts. -/
theorem isWritable_of_ofValue {v x : Value} {index : Option Nat} {ref : Option Value}
    (h : Atom.ofValue v = .error (.badAtom x index ref)) :
    x.IsWritable ∧ index = none ∧ ref = none := by
  have hbad : ∀ w, badAtom w = .badAtom x index ref → x.IsWritable ∧ index = none ∧ ref = none := by
    intro w hw
    obtain ⟨heq, hwritable⟩ := Error.eq_of_raised_eq hw (List.cons_ne_nil _ _)
    cases heq
    exact ⟨hwritable x List.mem_cons_self, rfl, rfl⟩
  have hnumber : ∀ s, Atom.numberOf (.str s) = .error (.badAtom x index ref) →
      x.IsWritable ∧ index = none ∧ ref = none :=
    fun s hs => hbad _ (eq_badAtom_of_numberOf hs).symm
  unfold Atom.ofValue at h
  split at h
  · cases h
  · cases h
  · rw [Atom.ofNumber] at h
    split at h
    · cases h
    · exact hnumber _ h
  · exact hnumber _ h
  · exact hnumber _ h
  · exact hbad _ (Except.error.inj h)

end ShellTemplate
