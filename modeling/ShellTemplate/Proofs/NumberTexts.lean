import ShellTemplate.Number.Shortest
import ShellTemplate.Proofs.PlainNumbers
import ShellTemplate.Value.Written

/-!
# The texts of numbers

A whole number and a finite binary number are written as a text that a number atom may have; an
infinity and a NaN are not. For a binary number the text comes from a search for the shortest
decimal, and that decimal has to be within the limits of numbers: 64 bits reach no further than some
thousand places to either side of the point.

* `WritesExponent` — the exponent that a text denotes, and the two ways in which it is written.
* `Writes` — the number that a text denotes; `writes_decimalText` — the text of a decimal denotes it.
* `Shortest.search_bounds`, `Shortest.ofBinary_eq` — where the search for the decimal ends.
* `Binary64.InFormat` — a binary number of 64 bits; `ofBinary_inRange` — its shortest decimal is
  within the limits.
* `isNumeral_integerText`, `isNumeral_toChars` — which numbers are written as numerals.
-/

set_option autoImplicit false

namespace ShellTemplate.Number

open Text Template

/-! ## Digits -/

theorem isNumberChar_digits (n : Nat) : ∀ c ∈ digits n, isNumberChar c = true :=
  fun _ hc => isNumberChar_of_isDigit (digits_isDigit hc)

theorem isDigits_digits (n : Nat) : IsDigits (digits n) :=
  ⟨digits_ne_nil n, fun _ hc => digits_isDigit hc⟩

theorem isDigit_of_mem_zeros {n : Nat} {c : Char} (h : c ∈ List.replicate n '0') :
    c.isDigit = true := by
  rw [List.eq_of_mem_replicate h]
  rfl

theorem ofDigits_zero_cons (ds : List Char) : ofDigits ('0' :: ds) = ofDigits ds := by
  rw [ofDigits, Nat.ofDigitChars_cons]
  rfl

theorem ofDigits_replicate_append (n : Nat) (ds : List Char) :
    ofDigits (List.replicate n '0' ++ ds) = ofDigits ds := by
  induction n with
  | zero => rfl
  | succ n ih => rw [List.replicate_succ, List.cons_append, ofDigits_zero_cons, ih]

/-! ## Exponents -/

/-- What a text that ends a number denotes as its exponent. -/
structure WritesExponent (text : List Char) (e : Int) : Prop where
  mark : text.head? = some 'e' ∨ text.head? = some 'E'
  plain : ∀ x ∈ text, isNumberChar x = true
  value : exponent? text = some e

/-- A mark, a sign and digits are an exponent. -/
theorem writesExponent_signed {mark : Char} (hmark : mark = 'e' ∨ mark = 'E') (e : Int)
    {ds : List Char} (h : IsDigits ds) (hvalue : ofDigits ds = e.natAbs) :
    WritesExponent (mark :: (if e < 0 then '-' else '+') :: ds) e where
  mark := by rcases hmark with rfl | rfl <;> simp
  plain := by
    have hsign : isNumberChar (if e < 0 then '-' else '+') = true := by split <;> decide
    have hfirst : isNumberChar mark = true := by rcases hmark with rfl | rfl <;> decide
    rw [List.forall_mem_cons, List.forall_mem_cons]
    exact ⟨hfirst, hsign, fun c hc => isNumberChar_of_isDigit (h.2 c hc)⟩
  value := by
    have hall : ds.all Char.isDigit = true := List.all_eq_true.2 h.2
    have hminus : exponent? (mark :: '-' :: ds) = some (-(ofDigits ds : Int)) := by
      simp [exponent?, hmark, sign, h.1, hall]
    have hplus : exponent? (mark :: '+' :: ds) = some (ofDigits ds : Int) := by
      simp [exponent?, hmark, sign, h.1, hall]
    by_cases hneg : e < 0
    · have hvalue' : -(e.natAbs : Int) = e := by omega
      rw [if_pos hneg, hminus, hvalue, hvalue']
    · have hvalue' : (e.natAbs : Int) = e := by omega
      rw [if_neg hneg, hplus, hvalue, hvalue']

theorem writesExponent_binary (e : Int) : WritesExponent (Binary64.exponentText e) e := by
  by_cases hshort : (digits e.natAbs).length < 2
  · -- an exponent of one digit gets a zero in front of it
    have hzero : IsDigits ('0' :: digits e.natAbs) := by
      refine ⟨List.cons_ne_nil _ _, ?_⟩
      rw [List.forall_mem_cons]
      exact ⟨rfl, (isDigits_digits _).2⟩
    have hvalue : ofDigits ('0' :: digits e.natAbs) = e.natAbs := by
      rw [ofDigits_zero_cons, ofDigits_digits]
    simpa only [Binary64.exponentText, if_pos hshort]
      using writesExponent_signed (.inl rfl) e hzero hvalue
  · simpa only [Binary64.exponentText, if_neg hshort]
      using writesExponent_signed (.inl rfl) e (isDigits_digits _) (ofDigits_digits _)

theorem writesExponent_decimal (e : Int) : WritesExponent (Decimal.exponentText e) e :=
  writesExponent_signed (.inr rfl) e (isDigits_digits _) (ofDigits_digits _)

/-! ## Decimals -/

/-- What a text of digits, a point and perhaps an exponent denotes. -/
structure Writes (text : List Char) (c : Nat) (e : Int) : Prop where
  head : StartsWithDigit text
  plain : ∀ x ∈ text, isNumberChar x = true
  magnitude : magnitude? text = some (c, e)

theorem writes_fraction {ds fs : List Char} (h : IsDigits ds) (hf : ∀ c ∈ fs, c.isDigit = true) :
    Writes (ds ++ '.' :: fs) (ofDigits (ds ++ fs)) (-(fs.length : Int)) where
  head := h.head _
  plain := by
    intro x hx
    simp only [List.mem_append, List.mem_cons] at hx
    rcases hx with hx | rfl | hx
    · exact isNumberChar_of_isDigit (h.2 x hx)
    · decide
    · exact isNumberChar_of_isDigit (hf x hx)
  magnitude := by
    have hmag := @magnitude?_fraction ds fs [] 0 h hf (by simp) rfl
    rwa [List.append_nil, Int.zero_sub] at hmag

/-- A coefficient with a point before its last places. -/
theorem writes_withPoint (c : Nat) {places : Nat} (hplaces : places ≠ 0) :
    Writes (Decimal.withPoint (digits c) places) c (-(places : Int)) := by
  unfold Decimal.withPoint
  rw [if_neg hplaces]
  split
  · rename_i hlt
    have hwhole : IsDigits ((digits c).take ((digits c).length - places)) := by
      refine ⟨?_, fun x hx => digits_isDigit (List.mem_of_mem_take hx)⟩
      rw [Ne, List.take_eq_nil_iff, not_or]
      exact ⟨by omega, digits_ne_nil c⟩
    have hfraction : ∀ x ∈ (digits c).drop ((digits c).length - places), x.isDigit = true :=
      fun x hx => digits_isDigit (List.mem_of_mem_drop hx)
    have hwrites := writes_fraction hwhole hfraction
    rw [List.take_append_drop, ofDigits_digits, List.length_drop] at hwrites
    rwa [show (digits c).length - ((digits c).length - places) = places by omega] at hwrites
  · rename_i hle
    have hzero : IsDigits ['0'] := ⟨List.cons_ne_nil _ _, by simp⟩
    have hfraction : ∀ x ∈ List.replicate (places - (digits c).length) '0' ++ digits c,
        x.isDigit = true := by
      intro x hx
      exact (List.mem_append.1 hx).elim isDigit_of_mem_zeros digits_isDigit
    have hwrites := writes_fraction hzero hfraction
    rw [List.singleton_append, List.singleton_append, ofDigits_zero_cons,
      ofDigits_replicate_append, ofDigits_digits, List.length_append, List.length_replicate] at hwrites
    rwa [show places - (digits c).length + (digits c).length = places by omega] at hwrites

/-- Digits alone are a whole number. -/
theorem writes_digits (c : Nat) : Writes (digits c) c 0 where
  head := List.append_nil (digits c) ▸ (isDigits_digits c).head []
  plain := isNumberChar_digits c
  magnitude := by
    have hmag := @magnitude?_whole _ [] 0 (isDigits_digits c) (by simp) (by simp) rfl
    rwa [List.append_nil, ofDigits_digits] at hmag

/-- Digits with a point behind the first of them, if there are more, and an exponent. -/
theorem writes_scientific {d : Char} {ds : List Char} (h : IsDigits (d :: ds)) {text : List Char}
    {e : Int} (hexponent : WritesExponent text e) :
    Writes ((match d :: ds with
      | [] => []
      | [d] => [d]
      | d :: rest => d :: '.' :: rest) ++ text)
      (ofDigits (d :: ds)) (e - ds.length) := by
  have hd : d.isDigit = true := h.2 d List.mem_cons_self
  have hds : ∀ c ∈ ds, c.isDigit = true := fun c hc => h.2 c (List.mem_cons_of_mem d hc)
  have hfirst : IsDigits [d] := ⟨List.cons_ne_nil _ _, by simpa using hd⟩
  have hstop : ∀ c ∈ text.head?, c.isDigit = false := by
    intro c hc
    rcases hexponent.mark with hmark | hmark <;> rw [hmark] at hc <;> cases hc <;> rfl
  cases ds with
  | nil =>
    refine ⟨hfirst.head _, ?_, ?_⟩
    · intro x hx
      rcases List.mem_append.1 hx with hx | hx
      · rw [List.mem_singleton.1 hx]; exact isNumberChar_of_isDigit hd
      · exact hexponent.plain x hx
    · have hpoint : text.head? ≠ some '.' := by
        rcases hexponent.mark with hmark | hmark <;> rw [hmark] <;> decide
      simpa using magnitude?_whole hfirst hstop hpoint hexponent.value
  | cons d' ds =>
    refine ⟨⟨d, _, rfl, hd⟩, ?_, magnitude?_fraction hfirst hds hstop hexponent.value⟩
    intro x hx
    simp only [List.cons_append, List.mem_cons, List.mem_append] at hx
    rcases hx with rfl | rfl | rfl | hx | hx
    · exact isNumberChar_of_isDigit hd
    · decide
    · exact isNumberChar_of_isDigit (hds x List.mem_cons_self)
    · exact isNumberChar_of_isDigit (hds x (List.mem_cons_of_mem _ hx))
    · exact hexponent.plain x hx

/-- A decimal is written as itself, or with a zero behind the point. -/
theorem writes_decimalText (negative : Bool) {c : Nat} {k : Int}
    (h : Decimal.InRange ⟨negative, c, k⟩) :
    ∃ c' e, Writes (Binary64.decimalText c k) c' e ∧ Decimal.InRange ⟨negative, c', e⟩ := by
  have hdigits := isDigits_digits c
  unfold Binary64.decimalText
  dsimp only
  split_ifs with hpoint hwhole
  · -- a whole number: its zeros and the one behind the point become digits of the coefficient
    have hall : IsDigits (digits c ++ List.replicate k.natAbs '0') := by
      refine ⟨by simp [hdigits.1], fun x hx => ?_⟩
      exact (List.mem_append.1 hx).elim digits_isDigit isDigit_of_mem_zeros
    have hzero : ∀ x ∈ ['0'], x.isDigit = true := by simp
    refine ⟨_, _, writes_fraction hall hzero, ?_⟩
    have hwidth := @length_digits_ofDigits_le
      ((digits c ++ List.replicate k.natAbs '0') ++ ['0'])
      (fun x hx => (List.mem_append.1 hx).elim (hall.2 x) (hzero x)) (by simp)
    simp only [List.length_append, List.length_replicate, List.length_singleton] at hwidth
    simp only [Decimal.InRange, Numeral.leading, Numeral.width, Decimal.maxLeading,
      Decimal.minExponent, List.length_singleton]
    unfold Binary64.pointEnd at hpoint
    constructor <;> omega
  · refine ⟨c, k, ?_, h⟩
    have hplaces : k.natAbs ≠ 0 := by omega
    have hwrites := writes_withPoint c hplaces
    rwa [show -(k.natAbs : Int) = k by omega] at hwrites
  · refine ⟨c, k, ?_, h⟩
    have hvalue := ofDigits_digits c
    obtain ⟨d, ds, hds⟩ := List.exists_cons_of_ne_nil hdigits.1
    rw [hds] at hdigits hvalue ⊢
    have hwrites := writes_scientific hdigits (writesExponent_binary (k + (d :: ds).length - 1))
    rwa [hvalue, show k + ((d :: ds).length : Int) - 1 - ds.length = k by
      rw [List.length_cons]; omega] at hwrites

/-! ## The search for the shortest decimal -/

namespace Shortest

variable {i : Interval}

theorem firstPower_bounds (num den fuel : Nat) (start : Int) :
    start - fuel ≤ firstPower num den fuel start ∧ firstPower num den fuel start ≤ start := by
  induction fuel generalizing start with
  | zero => simp [firstPower]
  | succ fuel ih =>
    have hbelow := ih (start - 1)
    simp only [firstPower]
    split
    · omega
    · omega

theorem le_of_hit? {k : Int} {c : Nat} (h : i.hit? k = some c) : c ≤ (i.floor k).1 + 1 := by
  simp only [Interval.hit?] at h
  split at h
  · split at h <;> cases h <;> omega
  · cases h; omega
  · cases h; omega
  · cases h

theorem floor_le (i : Interval) (k : Int) :
    (i.floor k).1 ≤ i.value * i.unit * 10 ^ k.natAbs := by
  simp only [Interval.floor]
  split
  · exact Nat.div_le_self _ _
  · exact (Nat.div_le_self _ _).trans (Nat.le_mul_of_pos_right _ (Nat.pow_pos (by decide)))

/-- The search ends on one of the grids that it tries, next to the value. -/
theorem search_bounds (i : Interval) (first : Int) (fuel count : Nat) :
    ∃ j : Nat, count ≤ j ∧ j ≤ count + fuel ∧ (search i first fuel count).2 = first - j + 1 ∧
      (search i first fuel count).1 ≤ (i.floor (first - j + 1)).1 + 1 := by
  induction fuel generalizing count with
  | zero => exact ⟨count, le_rfl, le_rfl, rfl, Nat.le_succ _⟩
  | succ fuel ih =>
    simp only [search]
    split
    · rename_i c hit
      exact ⟨count, le_rfl, by omega, rfl, le_of_hit? hit⟩
    · obtain ⟨j, hcount, hfuel, hplace, hvalue⟩ := ih (count + 1)
      exact ⟨j, by omega, by omega, hplace, hvalue⟩

theorem dropZeros_bounds (fuel c : Nat) (e : Int) :
    (dropZeros fuel c e).1 ≤ c ∧ e ≤ (dropZeros fuel c e).2 ∧ (dropZeros fuel c e).2 ≤ e + fuel := by
  induction fuel generalizing c e with
  | zero => simp [dropZeros]
  | succ fuel ih =>
    have hrest := ih (c / 10) (e + 1)
    simp only [dropZeros]
    split
    · omega
    · omega

/-- The decimal is searched for from the power of ten of the first digit on. -/
theorem ofBinary_eq {mantissa : Nat} (h : mantissa ≠ 0) (exponent : Int) :
    ∃ first : Int, -331 ≤ first ∧ first ≤ 309 ∧ ofBinary mantissa exponent =
      dropZeros 18 (search (.around mantissa exponent) first 17 1).1
        (search (.around mantissa exponent) first 17 1).2 := by
  rw [ofBinary, if_neg h]
  extract_lets i first
  have hfirst : 309 - ((640 : Nat) : Int) ≤ first ∧ first ≤ 309 :=
    firstPower_bounds (i.value * i.unit) i.per 640 309
  clear_value first
  refine ⟨first, by omega, hfirst.2, ?_⟩
  -- neither the search nor the dropping of zeros is to be run here
  generalize search i first 17 1 = found
  obtain ⟨c, k⟩ := found
  rfl

end Shortest

/-! ## Binary numbers -/

/-- The mantissa and the exponent of a finite number fit into 64 bits. -/
def Binary64.InFormat : Binary64 → Prop
  | .finite _ mantissa exponent =>
    mantissa < 2 ^ 53 ∧ Binary64.minExponent ≤ exponent ∧ exponent ≤ Binary64.maxExponent
  | .infinite _ | .nan => True

instance : DecidablePred Binary64.InFormat
  | .finite _ mantissa exponent => inferInstanceAs (Decidable (mantissa < 2 ^ 53 ∧
      Binary64.minExponent ≤ exponent ∧ exponent ≤ Binary64.maxExponent))
  | .infinite _ | .nan => isTrue trivial

theorem unit_around_le (mantissa : Nat) (exponent : Int) :
    (Shortest.Interval.around mantissa exponent).unit ≤ 10 ^ exponent.natAbs := by
  simp only [Shortest.Interval.around, Binary64.scaled]
  split
  · rw [Nat.one_mul, Int.natAbs_neg]
    exact Nat.pow_le_pow_left (by decide) _
  · exact Nat.pow_pos (by decide)

/-- The decimals next to a binary number have no more digits than its exponent and the grid ask
for. -/
theorem length_digits_le_of_grid {mantissa c : Nat} (hmantissa : mantissa < 2 ^ 53) (exponent k : Int)
    (hc : c ≤ ((Shortest.Interval.around mantissa exponent).floor k).1 + 1) :
    (digits c).length ≤ 18 + exponent.natAbs + k.natAbs := by
  have hmagnitude : ((Shortest.Interval.around mantissa exponent).floor k).1 ≤
      10 ^ (17 + exponent.natAbs + k.natAbs) := by
    have hvalue : (Shortest.Interval.around mantissa exponent).value ≤ 10 ^ 17 := by
      show 4 * mantissa ≤ 10 ^ 17
      omega
    have hunit := Nat.mul_le_mul hvalue (unit_around_le mantissa exponent)
    rw [Nat.pow_add, Nat.pow_add]
    exact (Shortest.floor_le _ k).trans (Nat.mul_le_mul_right _ hunit)
  rw [digits, Nat.length_toDigits_le_iff (by decide) (by omega),
    show 18 + exponent.natAbs + k.natAbs = 17 + exponent.natAbs + k.natAbs + 1 by omega,
    Nat.pow_succ]
  have hpos : 0 < 10 ^ (17 + exponent.natAbs + k.natAbs) := Nat.pow_pos (by decide)
  omega

/-- **The shortest decimal of a binary number is within the limits of numbers**: 64 bits reach some
thousand places to either side of the point. -/
theorem ofBinary_inRange (negative : Bool) {mantissa : Nat} {exponent : Int}
    (h : (Binary64.finite negative mantissa exponent).InFormat) :
    Decimal.InRange ⟨negative, (Shortest.ofBinary mantissa exponent).1,
      (Shortest.ofBinary mantissa exponent).2⟩ := by
  by_cases hzero : mantissa = 0
  · rw [hzero, Shortest.ofBinary, if_pos rfl]
    exact @inRange_of_length 0 negative 0 (by decide) (Nat.zero_le _)
  · obtain ⟨hmantissa, hmin, hmax⟩ := h
    obtain ⟨first, hlow, hhigh, hsearch⟩ := Shortest.ofBinary_eq hzero exponent
    rw [hsearch]
    obtain ⟨j, hcount, hfuel, hplace, hvalue⟩ :=
      Shortest.search_bounds (.around mantissa exponent) first 17 1
    generalize Shortest.search (.around mantissa exponent) first 17 1 = found at hplace hvalue ⊢
    obtain ⟨hcoefficient, hdown, hup⟩ := Shortest.dropZeros_bounds 18 found.1 found.2
    have hwidth := length_digits_le_of_grid hmantissa exponent _ (hcoefficient.trans hvalue)
    unfold Binary64.minExponent at hmin
    unfold Binary64.maxExponent at hmax
    simp only [Decimal.InRange, Numeral.leading, Numeral.width, Decimal.maxLeading,
      Decimal.minExponent]
    constructor <;> omega

/-! ## Texts of numbers -/

/-- The sign and the text of a magnitude within the limits are a numeral. -/
theorem Writes.isNumeral {body : List Char} {c : Nat} {e : Int} (h : Writes body c e)
    (negative : Bool) (hrange : Decimal.InRange ⟨negative, c, e⟩) :
    isNumeral (String.ofList ((if negative then ['-'] else []) ++ body)) = true :=
  isNumeral_of_magnitude negative h.head h.plain h.magnitude hrange

/-- **A finite binary number, and no other, is written as a numeral.** -/
theorem isNumeral_toChars {x : Binary64} (h : x.InFormat) :
    isNumeral (String.ofList x.toChars) = x.isFinite := by
  cases x with
  | finite negative m e =>
    obtain ⟨c, k, hwrites, hrange⟩ := writes_decimalText negative (ofBinary_inRange negative h)
    exact hwrites.isNumeral negative hrange
  | infinite negative => cases negative <;> rfl
  | nan => rfl

/-- A whole number that can be written is a numeral. -/
theorem isNumeral_integerText {n : Int} (h : (digits n.natAbs).length ≤ maxDigits) :
    isNumeral (integerText n) = true := by
  have hwrites := writes_digits n.natAbs
  have hrange : ∀ negative, Decimal.InRange ⟨negative, n.natAbs, 0⟩ := by
    intro negative
    exact @inRange_of_length 0 negative _ (h.trans (by decide)) (Nat.zero_le _)
  unfold integerText integer
  split
  · exact hwrites.isNumeral true (hrange true)
  · exact hwrites.isNumeral false (hrange false)

end ShellTemplate.Number
