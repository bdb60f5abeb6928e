import Mathlib.Data.List.Infix
import ShellTemplate.Proofs.AsciiRuns
import ShellTemplate.Template.Grammar

/-!
# Bare words that are numbers

A bare word is a number if it is an optional minus, digits, and an optional point with digits. The
reader decides this by one pass over the word; the grammar says it by `LooksLikeNumber`.

* `isNumber_iff` — the two agree.
* `isNumeral_of_length_le` — such a word is the text of a number atom, if it is not so long that its
  exponents are outside the limits.
* `ShortRuns` — the texts all of whose runs of digits are not longer than a position may be;
  `isNumeral_of_looksLikeNumber` — these are far within the limits.
-/

set_option autoImplicit false

namespace ShellTemplate.Template

open Text Number

/-- No run of digits in a text is longer than a position may be. -/
def ShortRuns (cs : List Char) : Prop :=
  ∀ ds, ds <:+: cs → (∀ d ∈ ds, d.isDigit = true) → ds.length ≤ maxDigits

theorem ShortRuns.mono {cs ds : List Char} (h : ShortRuns cs) (hi : ds <:+: cs) : ShortRuns ds :=
  fun es he hd => h es (he.trans hi) hd

/-! ## The shape of a number -/

theorem not_isDigit_minus : '-'.isDigit = false := by decide

theorem LooksLikeNumber.chars {text : List Char} (h : LooksLikeNumber text) :
    ∀ c ∈ text, c.isDigit = true ∨ c = '-' ∨ c = '.' := by
  have hminus : ∀ {minus : List Char}, minus = [] ∨ minus = ['-'] → ∀ c ∈ minus, c = '-' := by
    rintro _ (rfl | rfl) c hc
    · cases hc
    · exact List.mem_singleton.1 hc
  intro c hc
  cases h with
  | whole sign digits =>
    rcases List.mem_append.1 hc with hc | hc
    · exact .inr (.inl (hminus sign c hc))
    · exact .inl (digits.2 c hc)
  | fraction sign digits fraction =>
    simp only [List.mem_append, List.mem_cons] at hc
    rcases hc with (hc | hc) | rfl | hc
    · exact .inr (.inl (hminus sign c hc))
    · exact .inl (digits.2 c hc)
    · exact .inr (.inr rfl)
    · exact .inl (fraction.2 c hc)

/-- The part of a number behind its sign, which starts with a digit. -/
inductive Unsigned : List Char → Prop where
  | whole {ds : List Char} (digits : IsDigits ds) : Unsigned ds
  | fraction {ds fs : List Char} (digits : IsDigits ds) (fraction : IsDigits fs) :
    Unsigned (ds ++ '.' :: fs)

theorem looksLikeNumber_iff {text : List Char} :
    LooksLikeNumber text ↔
      ∃ minus body, (minus = [] ∨ minus = ['-']) ∧ Unsigned body ∧ text = minus ++ body := by
  constructor
  · intro h
    cases h with
    | whole sign digits => exact ⟨_, _, sign, .whole digits, rfl⟩
    | fraction sign digits fraction =>
      exact ⟨_, _, sign, .fraction digits fraction, List.append_assoc ..⟩
  · rintro ⟨minus, body, sign, hb, rfl⟩
    cases hb with
    | whole digits => exact .whole sign digits
    | fraction digits fraction =>
      rw [← List.append_assoc]
      exact .fraction sign digits fraction

/-- A text starts with a digit. -/
def StartsWithDigit (cs : List Char) : Prop := ∃ d rest, cs = d :: rest ∧ d.isDigit = true

theorem IsDigits.head {ds : List Char} (h : IsDigits ds) (rest : List Char) :
    StartsWithDigit (ds ++ rest) := by
  obtain ⟨d, ds, rfl⟩ := List.exists_cons_of_ne_nil h.1
  exact ⟨d, ds ++ rest, rfl, h.2 d List.mem_cons_self⟩

theorem Unsigned.head {body : List Char} (h : Unsigned body) : StartsWithDigit body := by
  cases h with
  | whole digits => exact List.append_nil body ▸ digits.head []
  | fraction digits _ => exact digits.head _

/-! ## Reading a word as a number -/

/-- The part of the test for a number behind the sign. -/
def isUnsigned (body : List Char) : Bool :=
  !(body.takeWhile Char.isDigit).isEmpty && match body.dropWhile Char.isDigit with
    | [] => true
    | '.' :: fraction => !fraction.isEmpty && fraction.all Char.isDigit
    | _ => false

theorem isUnsigned_iff {body : List Char} : isUnsigned body = true ↔ Unsigned body := by
  constructor
  · intro h
    have hsplit : body.takeWhile Char.isDigit ++ body.dropWhile Char.isDigit = body :=
      List.takeWhile_append_dropWhile
    simp only [isUnsigned, Bool.and_eq_true, Bool.not_eq_true', List.isEmpty_eq_false_iff] at h
    obtain ⟨hne, h⟩ := h
    have digits : IsDigits (body.takeWhile Char.isDigit) :=
      ⟨hne, fun c hc => List.mem_takeWhile_imp hc⟩
    split at h
    · rename_i hrest
      rw [hrest, List.append_nil] at hsplit
      rw [hsplit] at digits
      exact .whole digits
    · rename_i fs hrest
      simp only [Bool.and_eq_true, Bool.not_eq_true', List.isEmpty_eq_false_iff,
        List.all_eq_true] at h
      rw [← hsplit, hrest]
      exact .fraction digits h
    · cases h
  · intro h
    cases h with
    | whole digits =>
      simp [isUnsigned, takeWhile_all digits.2, dropWhile_all digits.2, digits.1]
    | @fraction ds fs digits fraction =>
      have stop := @forall_head_cons Char Char.isDigit '.' false rfl fs
      simp only [isUnsigned, takeWhile_run digits.2 stop, dropWhile_run digits.2 stop]
      simpa [digits.1, fraction.1] using fraction.2

theorem isNumber_minus (body : List Char) : isNumber ('-' :: body) = isUnsigned body := rfl

theorem isNumber_of_ne {c : Char} (hc : c ≠ '-') (body : List Char) :
    isNumber (c :: body) = isUnsigned (c :: body) := by
  unfold isNumber isUnsigned
  split
  · rename_i h; cases h; exact absurd rfl hc
  · rfl

/-- **The reader's test for a number is the grammar's.** -/
theorem isNumber_iff {word : List Char} : isNumber word = true ↔ LooksLikeNumber word := by
  rw [looksLikeNumber_iff]
  cases word with
  | nil =>
    constructor
    · intro h; cases h
    · rintro ⟨minus, body, _, hb, h⟩
      obtain ⟨d, rest, rfl, _⟩ := hb.head
      simp at h
  | cons c rest =>
    by_cases hc : c = '-'
    · subst hc
      rw [isNumber_minus, isUnsigned_iff]
      constructor
      · intro h; exact ⟨['-'], rest, .inr rfl, h, rfl⟩
      · rintro ⟨minus, body, rfl | rfl, hb, h⟩
        · obtain ⟨d, tail, rfl, hd⟩ := hb.head
          cases h
          simp [not_isDigit_minus] at hd
        · cases h
          exact hb
    · rw [isNumber_of_ne hc, isUnsigned_iff]
      constructor
      · intro h; exact ⟨[], c :: rest, .inl rfl, h, rfl⟩
      · rintro ⟨minus, body, rfl | rfl, hb, h⟩
        · rw [h]; exact hb
        · cases h; exact absurd rfl hc

/-! ## The decimal number of a word -/

section Magnitude

variable {ds fs rest : List Char} {e : Int}

theorem magnitude?_whole (h : IsDigits ds) (stop : ∀ c ∈ rest.head?, c.isDigit = false)
    (point : rest.head? ≠ some '.') (he : exponent? rest = some e) :
    magnitude? (ds ++ rest) = some (ofDigits ds, e) := by
  simp only [magnitude?, takeWhile_run h.2 stop, dropWhile_run h.2 stop]
  split
  · exact absurd rfl point
  · simp [h.1, he]

theorem magnitude?_fraction (h : IsDigits ds) (hf : ∀ c ∈ fs, c.isDigit = true)
    (stop : ∀ c ∈ rest.head?, c.isDigit = false) (he : exponent? rest = some e) :
    magnitude? (ds ++ '.' :: (fs ++ rest)) = some (ofDigits (ds ++ fs), e - fs.length) := by
  have hpoint := @forall_head_cons Char Char.isDigit '.' false rfl (fs ++ rest)
  simp [magnitude?, takeWhile_run h.2 hpoint, dropWhile_run h.2 hpoint, takeWhile_run hf stop,
    dropWhile_run hf stop, h.1, he]

end Magnitude

/-- The length up to which a text that looks like a number is one within the limits of exponents. -/
def maxNumberLength : Nat := 1000000000000000000

theorem inRange_of_length {places : Nat} {negative : Bool} {c : Nat}
    (hc : (digits c).length ≤ maxNumberLength + places) (hp : places ≤ maxNumberLength) :
    Decimal.InRange ⟨negative, c, -(places : Int)⟩ := by
  simp only [Decimal.InRange, Numeral.leading, Numeral.width, Decimal.maxLeading,
    Decimal.minExponent]
  unfold maxNumberLength at hc hp
  constructor <;> omega

theorem Unsigned.magnitude {body : List Char} (h : Unsigned body)
    (hlength : body.length ≤ maxNumberLength) :
    ∃ c e, magnitude? body = some (c, e) ∧ ∀ negative, Decimal.InRange ⟨negative, c, e⟩ := by
  cases h with
  | whole digits =>
    have hmag := @magnitude?_whole body [] 0 digits (by simp) (by simp) rfl
    rw [List.append_nil] at hmag
    refine ⟨_, _, hmag, fun negative => ?_⟩
    have hlen := length_digits_ofDigits_le digits.2 digits.1
    exact @inRange_of_length 0 negative _ (by omega) (Nat.zero_le _)
  | @fraction ds fs digits fraction =>
    have hmag := @magnitude?_fraction ds fs [] 0 digits fraction.2 (by simp) rfl
    rw [List.append_nil, Int.zero_sub] at hmag
    refine ⟨_, _, hmag, fun negative => ?_⟩
    have hall : ∀ d ∈ ds ++ fs, d.isDigit = true := by
      intro d hd
      exact (List.mem_append.1 hd).elim (digits.2 d) (fraction.2 d)
    have hlen := length_digits_ofDigits_le hall (by simp [digits.1])
    rw [List.length_append, List.length_cons] at hlength
    rw [List.length_append] at hlen
    exact inRange_of_length (by omega) (by omega)

/-- Characters of ASCII other than the underscore stand for themselves in a number's text. -/
theorem ascii_eq_self {cs : List Char}
    (h : ∀ c ∈ cs, 0 < c.toNat ∧ c.toNat ≤ 127 ∧ c ≠ '_') : Decimal.ascii cs = some cs := by
  have hfilter : cs.filter (· ≠ '_') = cs := by
    rw [List.filter_eq_self]
    intro c hc
    simpa using (h c hc).2.2
  rw [Decimal.ascii, hfilter]
  clear hfilter
  induction cs with
  | nil => rfl
  | cons c cs ih =>
    obtain ⟨h1, h2, _⟩ := h c List.mem_cons_self
    rw [List.mapM_cons, ih fun d hd => h d (List.mem_cons_of_mem _ hd)]
    simp [Decimal.ascii?, h1, h2]

/-- The characters that numbers are written with. -/
def isNumberChar (c : Char) : Bool := c.isDigit || ['.', '+', '-', 'e', 'E'].contains c

theorem isNumberChar_of_isDigit {c : Char} (h : c.isDigit = true) : isNumberChar c = true := by
  simp [isNumberChar, h]

theorem isNumberChar_ascii {c : Char} (h : isNumberChar c = true) :
    (0 < c.toNat ∧ c.toNat ≤ 127 ∧ c ≠ '_') ∧ isBlank c = false := by
  simp only [isNumberChar, Bool.or_eq_true, List.contains_iff_mem, List.mem_cons,
    List.not_mem_nil, or_false] at h
  rcases h with hd | rfl | rfl | rfl | rfl | rfl
  · have hlow := toNat_of_isDigit hd
    refine ⟨⟨by omega, by omega, ?_⟩, ?_⟩
    · rintro rfl; revert hd; decide
    · simp only [isBlank, Bool.or_eq_false_iff, Bool.and_eq_false_imp, decide_eq_true_eq,
        decide_eq_false_iff_not, beq_eq_false_iff_ne]
      omega
  · decide
  · decide
  · decide
  · decide
  · decide

theorem LooksLikeNumber.isNumberChar {text : List Char} (h : LooksLikeNumber text) {c : Char}
    (hc : c ∈ text) : isNumberChar c = true := by
  rcases h.chars c hc with hd | rfl | rfl
  · exact isNumberChar_of_isDigit hd
  · decide
  · decide

/-- A sign is taken off a text that has no other one behind it. -/
theorem sign_append (negative : Bool) {body : List Char}
    (hb : ∀ c ∈ body.head?, c ≠ '-' ∧ c ≠ '+') :
    sign ((if negative then ['-'] else []) ++ body) = (negative, body) := by
  cases negative with
  | true => rfl
  | false =>
    show sign body = (false, body)
    unfold sign
    split
    · exact absurd rfl (hb _ rfl).1
    · exact absurd rfl (hb _ rfl).2
    · rfl

theorem StartsWithDigit.head_ne_sign {cs : List Char} (h : StartsWithDigit cs) :
    ∀ c ∈ cs.head?, c ≠ '-' ∧ c ≠ '+' := by
  obtain ⟨d, rest, rfl, hd⟩ := h
  rintro c ⟨⟩
  constructor <;> rintro rfl <;> revert hd <;> decide

section Numeral

variable {body : List Char} {c : Nat} {e : Int}

/-- Characters that are neither blank nor dropped nor turned into others are read as they stand. -/
theorem ofChars?_of_plain (negative : Bool) (hb : ∀ c ∈ body.head?, c ≠ '-' ∧ c ≠ '+')
    (plain : ∀ x ∈ body, (0 < x.toNat ∧ x.toNat ≤ 127 ∧ x ≠ '_') ∧ isBlank x = false) :
    trim ((if negative then ['-'] else []) ++ body) = (if negative then ['-'] else []) ++ body ∧
      Decimal.ofChars? ((if negative then ['-'] else []) ++ body) =
        match magnitude? body with
        | some (c, e) =>
          if Decimal.InRange ⟨negative, c, e⟩ then some (.finite ⟨negative, c, e⟩) else none
        | none => Decimal.special? negative body := by
  have hall : ∀ x ∈ (if negative then ['-'] else []) ++ body,
      (0 < x.toNat ∧ x.toNat ≤ 127 ∧ x ≠ '_') ∧ isBlank x = false := by
    intro x hx
    rcases List.mem_append.1 hx with hx | hx
    · cases negative with
      | true => rw [List.mem_singleton.1 hx]; decide
      | false => cases hx
    · exact plain x hx
  have htrim := trim_of_not_blank (fun x hx => (hall x (List.mem_of_mem_head? hx)).2)
    (fun x hx => (hall x (List.mem_of_mem_getLast? hx)).2)
  have hascii := ascii_eq_self fun x hx => (hall x hx).1
  refine ⟨htrim, ?_⟩
  cases hmag : magnitude? body <;>
    simp only [Decimal.ofChars?, htrim, hascii, sign_append negative hb, Option.bind_eq_bind,
      Option.bind_some, hmag]

/-- A sign and a magnitude within the limits are read as the number that they write. -/
theorem ofChars?_of_magnitude (negative : Bool) (hb : StartsWithDigit body)
    (plain : ∀ x ∈ body, isNumberChar x = true)
    (hmag : magnitude? body = some (c, e)) (hrange : Decimal.InRange ⟨negative, c, e⟩) :
    trim ((if negative then ['-'] else []) ++ body) = (if negative then ['-'] else []) ++ body ∧
      Decimal.ofChars? ((if negative then ['-'] else []) ++ body) =
        some (.finite ⟨negative, c, e⟩) := by
  have hread := ofChars?_of_plain negative hb.head_ne_sign fun x hx => isNumberChar_ascii (plain x hx)
  rw [hmag] at hread
  simpa only [if_pos hrange] using hread

theorem isNumeral_of_magnitude (negative : Bool) (hb : StartsWithDigit body)
    (plain : ∀ x ∈ body, isNumberChar x = true)
    (hmag : magnitude? body = some (c, e)) (hrange : Decimal.InRange ⟨negative, c, e⟩) :
    isNumeral (String.ofList ((if negative then ['-'] else []) ++ body)) = true := by
  obtain ⟨htrim, hval⟩ := ofChars?_of_magnitude negative hb plain hmag hrange
  simp only [isNumeral, String.toList_ofList, htrim, hval, beq_self_eq_true, Bool.true_and]
  rfl

end Numeral

/-- **A bare word that looks like a number is the text of a number atom**, unless it is too long. -/
theorem isNumeral_of_length_le {text : List Char} (h : LooksLikeNumber text)
    (hlength : text.length ≤ maxNumberLength) : isNumeral (String.ofList text) = true := by
  have hplain : ∀ x ∈ text, isNumberChar x = true := fun x hx => h.isNumberChar hx
  obtain ⟨minus, body, hs, hb, rfl⟩ := looksLikeNumber_iff.1 h
  obtain ⟨negative, rfl⟩ : ∃ negative : Bool, minus = if negative then ['-'] else [] := by
    rcases hs with rfl | rfl
    · exact ⟨false, rfl⟩
    · exact ⟨true, rfl⟩
  rw [List.length_append] at hlength
  obtain ⟨c, e, hmag, hrange⟩ := hb.magnitude (by omega)
  exact isNumeral_of_magnitude negative hb.head
    (fun x hx => hplain x (List.mem_append_right _ hx)) hmag (hrange negative)

/-- A number is a sign, two runs of digits and a point at most. -/
theorem LooksLikeNumber.length_le {text : List Char} (h : LooksLikeNumber text)
    (short : ShortRuns text) : text.length ≤ 2 * maxDigits + 2 := by
  have hsign : ∀ {minus : List Char}, minus = [] ∨ minus = ['-'] → minus.length ≤ 1 := by
    rintro _ (rfl | rfl) <;> decide
  cases h with
  | @whole minus ds sign digits =>
    have hds := short ds (List.suffix_append minus ds).isInfix digits.2
    have hminus := hsign sign
    rw [List.length_append]
    omega
  | @fraction minus ds fs sign digits fraction =>
    have hds := short ds ⟨minus, '.' :: fs, rfl⟩ digits.2
    have hfs := short fs ⟨minus ++ ds ++ ['.'], [], by simp⟩ fraction.2
    have hminus := hsign sign
    rw [List.length_append, List.length_append, List.length_cons]
    omega

/-- A bare word with short runs of digits that looks like a number is the text of a number atom. -/
theorem isNumeral_of_looksLikeNumber {text : List Char} (h : LooksLikeNumber text)
    (short : ShortRuns text) : isNumeral (String.ofList text) = true := by
  apply isNumeral_of_length_le h
  exact (h.length_le short).trans (by decide)

end ShellTemplate.Template
