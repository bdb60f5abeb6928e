import Mathlib.Algebra.Group.Nat.Defs
import Mathlib.Data.List.Basic
import Mathlib.Data.List.TakeWhile
import ShellTemplate.Number.Numeral

/-!
# ASCII letters and digits, and their runs

A scanner that takes the longest run of a class of characters takes exactly the run that was
written, if what follows does not go on with it. The runs that matter most are those of digits.

* `toNat_of_isAlpha`, `toNat_of_isDigit` — the classes by code point.
* `takeWhile_run`, `dropWhile_run` — the longest run at the front of a text.
* `digits_isDigit`, `digits_ne_nil`, `head_digits` — the decimal digits of a number: digits only, at
  least one, and a leading zero for zero alone.
* `length_digits_ofDigits_le` — a number has no more digits than it was written with.
-/

set_option autoImplicit false

namespace ShellTemplate

open Number

/-! ## Letters and digits -/

theorem toNat_of_isAlpha {c : Char} (h : c.isAlpha = true) :
    (65 ≤ c.toNat ∧ c.toNat ≤ 90) ∨ (97 ≤ c.toNat ∧ c.toNat ≤ 122) := by
  change (decide (65 ≤ c.val ∧ c.val ≤ 90) || (decide (97 ≤ c.val) && decide (c.val ≤ 122))) = true
    at h
  simp only [Bool.or_eq_true, Bool.and_eq_true, decide_eq_true_eq, UInt32.le_iff_toNat_le] at h
  exact h

theorem toNat_of_isDigit {c : Char} (h : c.isDigit = true) : 48 ≤ c.toNat ∧ c.toNat ≤ 57 :=
  Char.isDigit_iff_toNat.1 h

/-! ## The longest run -/

section Runs

variable {α : Type} {p : α → Bool} {xs rest : List α}

theorem forall_head_cons {c : α} {b : Bool} (h : p c = b) (rest : List α) :
    ∀ x ∈ (c :: rest).head?, p x = b :=
  fun _ hx => Option.some.inj hx ▸ h

theorem takeWhile_run (hx : ∀ x ∈ xs, p x = true) (hr : ∀ x ∈ rest.head?, p x = false) :
    (xs ++ rest).takeWhile p = xs := by
  rw [List.takeWhile_append_of_pos hx]
  cases rest with
  | nil => simp
  | cons y rest => simp [hr y rfl]

theorem dropWhile_run (hx : ∀ x ∈ xs, p x = true) (hr : ∀ x ∈ rest.head?, p x = false) :
    (xs ++ rest).dropWhile p = rest := by
  rw [List.dropWhile_append_of_pos hx]
  cases rest with
  | nil => rfl
  | cons y rest => simp [hr y rfl]

theorem takeWhile_all (hx : ∀ x ∈ xs, p x = true) : xs.takeWhile p = xs := by
  simpa using @takeWhile_run α p xs [] hx (by simp)

theorem dropWhile_all (hx : ∀ x ∈ xs, p x = true) : xs.dropWhile p = [] := by
  simpa using @dropWhile_run α p xs [] hx (by simp)

end Runs

/-! ## The digits of a number -/

theorem digits_isDigit {n : Nat} {c : Char} (h : c ∈ digits n) : c.isDigit = true :=
  Nat.isDigit_of_mem_toDigits (by decide) (by decide) h

theorem digits_ne_nil (n : Nat) : digits n ≠ [] := Nat.toDigits_ne_nil

theorem exists_digits_eq_cons (n : Nat) : ∃ d ds, digits n = d :: ds ∧ d.isDigit = true := by
  obtain ⟨d, ds, hd⟩ := List.exists_cons_of_ne_nil (digits_ne_nil n)
  have hmem : d ∈ digits n := by rw [hd]; exact List.mem_cons_self
  exact ⟨d, ds, hd, digits_isDigit hmem⟩

theorem head_digits_pos {n : Nat} (h : 0 < n) : (digits n).head? ≠ some '0' := by
  induction n using Nat.strong_induction_on with
  | _ n ih =>
    by_cases hn : n < 10
    · have table : ∀ m < 10, 0 < m → m.digitChar ≠ '0' := by decide
      rw [digits, Nat.toDigits_of_lt_base hn]
      simpa using table n hn h
    · have hdiv := ih (n / 10) (by omega) (by omega)
      rw [digits, Nat.toDigits_of_base_le (by decide) (by omega)]
      rw [List.head?_append_of_ne_nil _ Nat.toDigits_ne_nil]
      exact hdiv

/-- Only zero itself is written with a zero in front. -/
theorem head_digits {n : Nat} (h : (digits n).head? = some '0') : (digits n).length = 1 := by
  rcases Nat.eq_zero_or_pos n with rfl | hn
  · rfl
  · exact absurd h (head_digits_pos hn)

theorem ofDigitChars_lt {ds : List Char} (h : ∀ d ∈ ds, d.isDigit = true) :
    ∀ init, Nat.ofDigitChars 10 ds init < (init + 1) * 10 ^ ds.length := by
  induction ds with
  | nil => intro init; simp
  | cons d ds ih =>
    intro init
    have hd := toNat_of_isDigit (h d List.mem_cons_self)
    have hlt := ih (fun e he => h e (List.mem_cons_of_mem _ he)) (10 * init + (d.toNat - '0'.toNat))
    have hle : 10 * init + (d.toNat - '0'.toNat) + 1 ≤ (init + 1) * 10 := by
      change 10 * init + (d.toNat - 48) + 1 ≤ (init + 1) * 10
      omega
    rw [Nat.ofDigitChars_cons, List.length_cons, Nat.pow_succ, Nat.mul_comm _ 10, ← Nat.mul_assoc]
    exact lt_of_lt_of_le hlt (Nat.mul_le_mul_right _ hle)

/-- A number has no more digits than it was written with. -/
theorem length_digits_ofDigits_le {ds : List Char} (h : ∀ d ∈ ds, d.isDigit = true)
    (hne : ds ≠ []) : (digits (ofDigits ds)).length ≤ ds.length := by
  have hpos : 0 < ds.length := List.length_pos_iff.2 hne
  rw [digits, Nat.length_toDigits_le_iff (by decide) hpos, ofDigits]
  simpa using ofDigitChars_lt h 0

end ShellTemplate
