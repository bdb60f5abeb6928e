import ShellTemplate.Checked
import ShellTemplate.Proofs.NumberTexts

/-!
# Decimal numbers are read back from their texts

A decimal number is written in the scientific form: as a whole number, with a point, or with one
digit in front of the point and an exponent. Whichever it is, the text is read as the same sign, the
same coefficient and the same exponent, and not as another numeral of the same number.

* `writes_magnitudeText` — what each of the three forms denotes.
* `Decimal.Valid` — the decimals within the limits; `ofChars?_toChars` — these are read back, with
  infinities and NaNs among them; `valid_iff_exists_text` — no text denotes any other.
* `numbers_keep_their_texts` — whole numbers and decimals as number atoms, and the numbers that are
  refused.
-/

set_option autoImplicit false

namespace ShellTemplate.Number

open Text Template

namespace Decimal

/-! ## Finite numbers -/

/-- The scientific form without its sign. -/
def magnitudeText (n : Numeral) : List Char :=
  if n.exponent ≤ 0 ∧ -6 ≤ n.leading then withPoint (digits n.coefficient) (-n.exponent).toNat
  else withPoint (digits n.coefficient) ((digits n.coefficient).length - 1) ++
    exponentText n.leading

theorem numeralText_eq (n : Numeral) :
    numeralText n = (if n.negative then ['-'] else []) ++ magnitudeText n := by
  unfold numeralText magnitudeText
  cases n.negative <;> rfl

/-- A point behind the first digit, if there are more of them. -/
theorem withPoint_length (d : Char) (ds : List Char) :
    withPoint (d :: ds) ds.length = match d :: ds with
      | [] => []
      | [d] => [d]
      | d :: rest => d :: '.' :: rest := by
  cases ds with
  | nil => rfl
  | cons e ds => simp [withPoint]

/-- **The scientific form denotes the coefficient and the exponent that it was written for.** -/
theorem writes_magnitudeText (n : Numeral) :
    Writes (magnitudeText n) n.coefficient n.exponent := by
  unfold magnitudeText
  split
  · rename_i hplain
    by_cases hwhole : n.exponent = 0
    · rw [hwhole]
      exact writes_digits n.coefficient
    · have hplaces : (-n.exponent).toNat ≠ 0 := by omega
      have hwrites := writes_withPoint n.coefficient hplaces
      rwa [show -((-n.exponent).toNat : Int) = n.exponent by omega] at hwrites
  · have hdigits := isDigits_digits n.coefficient
    have hvalue := ofDigits_digits n.coefficient
    have hleading : n.leading = n.exponent + (digits n.coefficient).length - 1 := rfl
    obtain ⟨d, ds, hds⟩ := List.exists_cons_of_ne_nil hdigits.1
    rw [hds, List.length_cons] at hleading
    rw [hds] at hdigits hvalue ⊢
    have hwrites := writes_scientific hdigits (writesExponent_decimal n.leading)
    rw [hvalue, show n.leading - (ds.length : Int) = n.exponent by omega] at hwrites
    rw [List.length_cons, Nat.add_sub_cancel, withPoint_length]
    exact hwrites

theorem ofChars?_numeralText {n : Numeral} (h : InRange n) :
    trim (numeralText n) = numeralText n ∧ ofChars? (numeralText n) = some (.finite n) := by
  have hwrites := writes_magnitudeText n
  rw [numeralText_eq]
  exact ofChars?_of_magnitude n.negative hwrites.head hwrites.plain hwrites.magnitude h

/-! ## Infinities and NaNs -/

theorem toLower_of_isDigit {d : Char} (h : d.isDigit = true) : d.toLower = d := by
  have hlow : d.toNat ≤ 57 := (toNat_of_isDigit h).2
  have hupper : ¬(d.val ≥ 'A'.val ∧ d.val ≤ 'Z'.val) := by
    rintro ⟨hge, -⟩
    have hle : 65 ≤ d.toNat := UInt32.le_iff_toNat_le.1 hge
    omega
  exact dif_neg hupper

theorem map_toLower_digits {ds : List Char} (h : ∀ d ∈ ds, d.isDigit = true) :
    ds.map Char.toLower = ds := by
  induction ds with
  | nil => rfl
  | cons d ds ih =>
    rw [List.forall_mem_cons] at h
    rw [List.map_cons, toLower_of_isDigit h.1, ih h.2]

theorem alphanum_ascii {c : Char} (h : c.isAlphanum = true) :
    (0 < c.toNat ∧ c.toNat ≤ 127 ∧ c ≠ '_') ∧ isBlank c = false := by
  have hrange : (48 ≤ c.toNat ∧ c.toNat ≤ 90) ∨ (97 ≤ c.toNat ∧ c.toNat ≤ 122) := by
    rw [Char.isAlphanum, Bool.or_eq_true] at h
    rcases h with h | h
    · have halpha := toNat_of_isAlpha h
      omega
    · have hdigit := toNat_of_isDigit h
      omega
  refine ⟨⟨by omega, by omega, ?_⟩, ?_⟩
  · rintro rfl
    revert h
    decide
  · simp only [isBlank, Bool.or_eq_false_iff, Bool.and_eq_false_imp, decide_eq_true_eq,
      decide_eq_false_iff_not, beq_eq_false_iff_ne]
    omega

theorem magnitude?_of_letter {c : Char} (h : c.isAlpha = true) (rest : List Char) :
    magnitude? (c :: rest) = none := by
  have hrange := toNat_of_isAlpha h
  have hdigit : c.isDigit = false := by
    rw [Bool.eq_false_iff]
    intro hd
    have hlow := toNat_of_isDigit hd
    omega
  have hpoint : c ≠ '.' := by
    rintro rfl
    revert h
    decide
  simp only [magnitude?, List.takeWhile_cons, List.dropWhile_cons, hdigit, Bool.false_eq_true,
    if_false]
  split
  · rename_i heq
    cases heq
    exact absurd rfl hpoint
  · rfl

/-- Behind a sign, letters and digits that start with a letter are read as an infinity or a NaN. -/
theorem ofChars?_of_letters (negative : Bool) {c : Char} {rest : List Char}
    (h : c.isAlpha = true) (hrest : ∀ x ∈ rest, x.isAlphanum = true) :
    trim ((if negative then ['-'] else []) ++ c :: rest) =
        (if negative then ['-'] else []) ++ c :: rest ∧
      ofChars? ((if negative then ['-'] else []) ++ c :: rest) = special? negative (c :: rest) := by
  have hsign : ∀ x ∈ (c :: rest).head?, x ≠ '-' ∧ x ≠ '+' := by
    rintro x ⟨⟩
    constructor <;> rintro rfl <;> revert h <;> decide
  have hplain : ∀ x ∈ c :: rest,
      (0 < x.toNat ∧ x.toNat ≤ 127 ∧ x ≠ '_') ∧ isBlank x = false := by
    rw [List.forall_mem_cons]
    refine ⟨alphanum_ascii ?_, fun x hx => alphanum_ascii (hrest x hx)⟩
    rw [Char.isAlphanum, h, Bool.true_or]
  have hread := ofChars?_of_plain negative hsign hplain
  rwa [magnitude?_of_letter h] at hread

/-- The digits of a payload; none for a payload of zero. -/
def payloadText (payload : Nat) : List Char := if payload = 0 then [] else digits payload

theorem isDigit_payloadText {payload : Nat} : ∀ d ∈ payloadText payload, d.isDigit = true := by
  unfold payloadText
  split
  · rintro d ⟨⟩
  · intro d hd
    exact digits_isDigit hd

theorem ofDigits_payloadText (payload : Nat) : ofDigits (payloadText payload) = payload := by
  unfold payloadText
  split
  · rename_i hzero
    rw [hzero]
    rfl
  · exact ofDigits_digits payload

theorem special?_infinity (negative : Bool) :
    special? negative "Infinity".toList = some (.infinite negative) := by
  cases negative <;> rfl

theorem special?_nan (negative signaling : Bool) (payload : Nat) :
    special? negative ((if signaling then ['s'] else []) ++ "NaN".toList ++ payloadText payload) =
      some (.nan negative signaling payload) := by
  have hlower := map_toLower_digits (@isDigit_payloadText payload)
  have hall : (payloadText payload).all Char.isDigit = true :=
    List.all_eq_true.2 isDigit_payloadText
  have hvalue := ofDigits_payloadText payload
  cases signaling with
  | true =>
    have htext : List.map Char.toLower ('s' :: 'N' :: 'a' :: 'N' :: payloadText payload) =
        's' :: 'n' :: 'a' :: 'n' :: payloadText payload :=
      congrArg (['s', 'n', 'a', 'n'] ++ ·) hlower
    show special? negative ('s' :: 'N' :: 'a' :: 'N' :: payloadText payload) = _
    simp [special?, htext, hall, hvalue]
  | false =>
    have htext : List.map Char.toLower ('N' :: 'a' :: 'N' :: payloadText payload) =
        'n' :: 'a' :: 'n' :: payloadText payload :=
      congrArg (['n', 'a', 'n'] ++ ·) hlower
    show special? negative ('N' :: 'a' :: 'N' :: payloadText payload) = _
    simp [special?, htext, hall, hvalue]

/-! ## Reading what was written -/

/-- The exponents of a finite number are within the limits. -/
def Valid : Decimal → Prop
  | finite n => InRange n
  | infinite _ | nan _ _ _ => True

instance : DecidablePred Valid
  | finite n => inferInstanceAs (Decidable (InRange n))
  | infinite _ | nan _ _ _ => isTrue trivial

/-- **A decimal within the limits is read back from its text**, with its sign, its coefficient and
its exponent, or with its payload. -/
theorem ofChars?_toChars {d : Decimal} (h : d.Valid) :
    trim d.toChars = d.toChars ∧ ofChars? d.toChars = some d := by
  cases d with
  | finite n => exact ofChars?_numeralText h
  | infinite negative =>
    have hrest : ∀ x ∈ "nfinity".toList, x.isAlphanum = true := List.all_eq_true.1 (by decide)
    have hread := ofChars?_of_letters negative (show 'I'.isAlpha = true by decide) hrest
    exact ⟨hread.1, hread.2.trans (special?_infinity negative)⟩
  | nan negative signaling payload =>
    have hspecial := special?_nan negative signaling payload
    have htext : (nan negative signaling payload).toChars = (if negative then ['-'] else []) ++
        ((if signaling then ['s'] else []) ++ "NaN".toList ++ payloadText payload) := by
      simp [toChars, payloadText]
    have hdigits : ∀ x ∈ payloadText payload, x.isAlphanum = true := by
      intro x hx
      rw [Char.isAlphanum, isDigit_payloadText x hx, Bool.or_true]
    rw [htext]
    cases signaling with
    | true =>
      have hrest : ∀ x ∈ 'N' :: 'a' :: 'N' :: payloadText payload, x.isAlphanum = true := by
        simpa using hdigits
      have hread := ofChars?_of_letters negative (show 's'.isAlpha = true by decide) hrest
      exact ⟨hread.1, hread.2.trans hspecial⟩
    | false =>
      have hrest : ∀ x ∈ 'a' :: 'N' :: payloadText payload, x.isAlphanum = true := by
        simpa using hdigits
      have hread := ofChars?_of_letters negative (show 'N'.isAlpha = true by decide) hrest
      exact ⟨hread.1, hread.2.trans hspecial⟩

theorem special?_ne_finite (negative : Bool) (cs : List Char) (n : Numeral) :
    special? negative cs ≠ some (.finite n) := by
  unfold special?
  dsimp only
  split_ifs
  · rintro ⟨⟩
  · split
    · split <;> rintro ⟨⟩
    · split <;> rintro ⟨⟩
    · rintro ⟨⟩

/-- A text that denotes a finite number is, in ASCII, a sign and a magnitude within the limits. -/
theorem exists_ascii_of_ofChars? {cs : List Char} {n : Numeral}
    (h : ofChars? cs = some (.finite n)) :
    ∃ ds rest, ascii (trim cs) = some ds ∧ sign ds = (n.negative, rest) ∧
      magnitude? rest = some (n.coefficient, n.exponent) ∧ InRange n := by
  simp only [ofChars?, Option.bind_eq_bind, Option.bind_eq_some_iff] at h
  obtain ⟨ds, hascii, h⟩ := h
  split at h
  · rename_i c e hmag
    split at h
    · rename_i hrange
      cases h
      exact ⟨ds, _, hascii, rfl, hmag, hrange⟩
    · cases h
  · exact absurd h (special?_ne_finite _ _ n)

theorem valid_of_ofChars? {cs : List Char} {d : Decimal} (h : ofChars? cs = some d) : d.Valid := by
  cases d with
  | infinite _ | nan _ _ _ => trivial
  | finite n =>
    obtain ⟨_, _, -, -, -, hrange⟩ := exists_ascii_of_ofChars? h
    exact hrange

/-- **The decimals within the limits are those that some text denotes.** -/
theorem valid_iff_exists_text {d : Decimal} : d.Valid ↔ ∃ cs, ofChars? cs = some d :=
  ⟨fun h => ⟨d.toChars, (ofChars?_toChars h).2⟩, fun ⟨_, h⟩ => valid_of_ofChars? h⟩

end Decimal

open Decimal

/-- A decimal within the limits is written as a numeral exactly if it is finite. -/
theorem isNumeral_decimal {d : Decimal} (h : d.Valid) :
    isNumeral (String.ofList d.toChars) = d.isFinite := by
  obtain ⟨htrim, hread⟩ := ofChars?_toChars h
  simp [isNumeral, htrim, hread]

theorem toList_integerText (n : Int) :
    (integerText n).toList = (if decide (n < 0) then ['-'] else []) ++ digits n.natAbs := by
  rw [integerText, String.toList_ofList, integer]
  by_cases hneg : n < 0 <;> simp [hneg]

theorem ofChars?_integerText {n : Int} (h : (digits n.natAbs).length ≤ maxDigits) :
    Decimal.ofChars? (integerText n).toList = some (.finite ⟨decide (n < 0), n.natAbs, 0⟩) := by
  have hwrites := writes_digits n.natAbs
  have hrange := @inRange_of_length 0 (decide (n < 0)) n.natAbs (h.trans (by decide))
    (Nat.zero_le _)
  rw [toList_integerText]
  exact (ofChars?_of_magnitude _ hwrites.head hwrites.plain hwrites.magnitude hrange).2

end ShellTemplate.Number

namespace ShellTemplate

open Number

/-! ## Number atoms -/

theorem Atom.ofNumber_decimal {d : Decimal} (h : d.Valid) :
    Atom.ofNumber (.decimal d) =
      if d.isFinite then .ok (.number (String.ofList d.toChars))
      else .error (badAtom (.str (String.ofList d.toChars))) := by
  rw [Atom.ofNumber, Atom.numberOf_str, isNumeral_decimal h]

theorem Atom.ofNumber_float {x : Binary64} (h : x.InFormat) :
    Atom.ofNumber (.float x) =
      if x.isFinite then .ok (.number (String.ofList x.toChars))
      else .error (badAtom (.str (String.ofList x.toChars))) := by
  rw [Atom.ofNumber, Atom.numberOf_str, isNumeral_toChars h]

/-- A number becomes the number atom of a text, wherever it is taken for an atom or for a number,
and the text denotes the number as a numeral. -/
structure Value.KeptAs (v : Value) (text : String) (n : Numeral) : Prop where
  atom : Atom.ofValue v = .ok (.number text)
  number : Atom.ofNumber v = .ok (.number text)
  denotes : Decimal.ofChars? text.toList = some (.finite n)

/-- A value is no atom and no number, and is refused with another value. -/
structure Value.RefusedWith (v w : Value) : Prop where
  atom : Atom.ofValue v = .error (badAtom w)
  number : Atom.ofNumber v = .error (badAtom w)

theorem Value.keptAs_int {n : Int} (h : (digits n.natAbs).length ≤ maxDigits) :
    (Value.int n).KeptAs (integerText n) ⟨decide (n < 0), n.natAbs, 0⟩ := by
  have hnumber : Atom.ofNumber (.int n) = .ok (.number (integerText n)) := by
    rw [Atom.ofNumber, if_neg (Nat.not_lt.2 h), Atom.numberOf_str, if_pos (isNumeral_integerText h)]
  exact ⟨hnumber, hnumber, ofChars?_integerText h⟩

theorem Value.keptAs_decimal {n : Numeral} (h : Decimal.InRange n) :
    (Value.decimal (.finite n)).KeptAs (String.ofList (Decimal.finite n).toChars) n := by
  have hvalid : (Decimal.finite n).Valid := h
  have hnumber : Atom.ofNumber (.decimal (.finite n)) =
      .ok (.number (String.ofList (Decimal.finite n).toChars)) := Atom.ofNumber_decimal hvalid
  refine ⟨hnumber, hnumber, ?_⟩
  rw [String.toList_ofList]
  exact (Decimal.ofChars?_toChars hvalid).2

theorem Value.refusedWith_decimal {d : Decimal} (h : d.isFinite = false) :
    (Value.decimal d).RefusedWith (.str (String.ofList d.toChars)) := by
  have hvalid : d.Valid := by
    cases d with
    | finite _ => cases h
    | infinite _ | nan _ _ _ => trivial
  have hnumber : Atom.ofNumber (.decimal d) =
      .error (badAtom (.str (String.ofList d.toChars))) := by
    rw [Atom.ofNumber_decimal hvalid, h]
    rfl
  exact ⟨hnumber, hnumber⟩

theorem Value.refusedWith_float {x : Binary64} (h : x.isFinite = false) :
    (Value.float x).RefusedWith (.str (String.ofList x.toChars)) := by
  have hformat : x.InFormat := by
    cases x with
    | finite _ _ _ => cases h
    | infinite _ | nan => trivial
  have hnumber : Atom.ofNumber (.float x) = .error (badAtom (.str (String.ofList x.toChars))) := by
    rw [Atom.ofNumber_float hformat, h]
    rfl
  exact ⟨hnumber, hnumber⟩

/-- **Every whole number that can be written and every finite decimal survives as its own text**: it
becomes the number atom of that text, which denotes the sign, the coefficient and the exponent that
the number has. The decimals are those within the limits, and these are all that any text denotes.
Infinities, NaNs and truth values are refused. -/
theorem numbers_keep_their_texts :
    (∀ n : Int, (digits n.natAbs).length ≤ maxDigits →
      (Value.int n).KeptAs (integerText n) ⟨decide (n < 0), n.natAbs, 0⟩) ∧
    (∀ n : Numeral, Decimal.InRange n →
      (Value.decimal (.finite n)).KeptAs (String.ofList (Decimal.finite n).toChars) n) ∧
    (∀ n : Numeral, Decimal.InRange n ↔ ∃ cs, Decimal.ofChars? cs = some (.finite n)) ∧
    (∀ d : Decimal, d.isFinite = false →
      (Value.decimal d).RefusedWith (.str (String.ofList d.toChars))) ∧
    (∀ x : Binary64, x.isFinite = false →
      (Value.float x).RefusedWith (.str (String.ofList x.toChars))) ∧
    ∀ b, (Value.bool b).RefusedWith (.bool b) := by
  refine ⟨?_, ?_, ?_, ?_, ?_, ?_⟩
  · intro n h
    exact Value.keptAs_int h
  · intro n h
    exact Value.keptAs_decimal h
  · intro n
    exact @Decimal.valid_iff_exists_text (.finite n)
  · intro d h
    exact Value.refusedWith_decimal h
  · intro x h
    exact Value.refusedWith_float h
  · intro b
    exact ⟨rfl, rfl⟩

/-- The least number within the limits that is not zero. -/
def leastNumeral : Numeral := ⟨false, 1, -1999999999999999997⟩

/-- A negative zero that is written with an exponent. -/
def longZero : Numeral := ⟨true, 0, -7⟩

theorem edgeNumbers_keep_their_texts :
    (Value.int (-120)).KeptAs "-120" ⟨true, 120, 0⟩ ∧
      (Value.decimal (.finite leastNumeral)).KeptAs "1E-1999999999999999997" leastNumeral ∧
      (Value.decimal (.finite longZero)).KeptAs "-0E-7" longZero ∧
      (Value.decimal (.nan true true 12)).RefusedWith (.str "-sNaN12") := by
  obtain ⟨hint, hdecimal, -, hspecial, -, -⟩ := numbers_keep_their_texts
  refine ⟨?_, ?_, ?_, ?_⟩
  · exact hint (-120) (by decide)
  · exact hdecimal leastNumeral (by decide)
  · exact hdecimal longZero (by decide)
  · exact hspecial (.nan true true 12) rfl

end ShellTemplate
