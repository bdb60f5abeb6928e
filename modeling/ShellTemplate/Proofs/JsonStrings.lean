import ShellTemplate.Json.Text

/-!
# JSON strings are read back

One character of a JSON string is written as itself, as a short escape, or as a `\u` escape of four
hexadecimal digits. Whatever it is, the reader takes exactly what was written for it:

* `readBody_escape` — for one character, whatever comes before and behind it;
* `readBody_quoted` — for a whole string with its closing quote.
-/

set_option autoImplicit false

namespace ShellTemplate.Json

open Text

/-! ## One step of the reader -/

theorem readBody_end (read rest : List Char) :
    readBody read ('"' :: rest) = some (read.reverse, rest) := by
  rw [readBody.eq_def]
  rfl

theorem readBody_unicode {read cs rest : List Char} {c : Char}
    (h : unicodeEscape? cs = some (c, rest)) :
    readBody read ('\\' :: 'u' :: cs) = readBody (c :: read) rest := by
  rw [readBody.eq_def]
  simp only
  split
  · rename_i hc; rw [h] at hc; cases hc; rfl
  · rename_i hc; rw [h] at hc; cases hc

theorem readBody_short {c d : Char} (hu : c ≠ 'u') (h : unescape? c = some d)
    (read rest : List Char) :
    readBody read ('\\' :: c :: rest) = readBody (d :: read) rest := by
  rw [readBody.eq_def]
  split
  · rename_i hc; cases hc
  · rename_i hc; cases hc
  · rename_i hc; cases hc; exact absurd rfl hu
  · rename_i hc; cases hc; rw [h]
  · rename_i hno hc; cases hc; exact absurd rfl (hno c rest rfl)

theorem readBody_plain {c : Char} (h1 : c ≠ '"') (h2 : c ≠ '\\') (h3 : ¬ c.toNat < 0x20)
    (read rest : List Char) : readBody read (c :: rest) = readBody (c :: read) rest := by
  rw [readBody.eq_def]
  split
  · rename_i hc; cases hc
  · rename_i hc; cases hc; exact absurd rfl h1
  · rename_i hc; cases hc; exact absurd rfl h2
  · rename_i hc; cases hc; exact absurd rfl h2
  · rename_i hc; cases hc; exact if_neg h3

/-! ## Escapes by code point -/

theorem hex4?_append {cs rest : List Char} {n : Nat} (h : hex4? cs = some (n, rest))
    (more : List Char) : hex4? (cs ++ more) = some (n, rest ++ more) := by
  unfold hex4? at h
  split at h
  · simp only [Option.bind_eq_bind, Option.bind_eq_some_iff, Option.pure_def, Option.some.injEq,
      Prod.mk.injEq] at h
    obtain ⟨a, ha, b, hb, c, hc, d, hd, rfl, rfl⟩ := h
    simp [hex4?, ha, hb, hc, hd]
  · cases h

/-- The escape of a control is read as that control. -/
theorem unicodeEscape?_control {n : Nat} (h : n < 0x20) (rest : List Char) :
    unicodeEscape? (hex 4 n ++ rest) = some (Char.ofNat n, rest) := by
  have table : ∀ n < 0x20, hex4? (hex 4 n) = some (n, []) := by decide +kernel
  have hread := hex4?_append (table n h) rest
  have hlow : isLowSurrogate n = false := by
    simp only [isLowSurrogate, Bool.and_eq_false_imp, decide_eq_true_eq, decide_eq_false_iff_not]
    omega
  have hhigh : isHighSurrogate n = false := by
    simp only [isHighSurrogate, Bool.and_eq_false_imp, decide_eq_true_eq, decide_eq_false_iff_not]
    omega
  simp [unicodeEscape?, hread, hlow, hhigh]

/-! ## Strings -/

/-- **What is written for a character is read as the character**, and nothing more is taken. -/
theorem readBody_escape (c : Char) (read rest : List Char) :
    readBody read (escape c ++ rest) = readBody (c :: read) rest := by
  unfold escape
  split
  · rename_i h; subst h
    exact readBody_short (by decide) rfl read rest
  rename_i hquote
  split
  · rename_i h; subst h
    exact readBody_short (by decide) rfl read rest
  rename_i hslash
  split
  · rename_i h; subst h
    exact readBody_short (by decide) rfl read rest
  split
  · rename_i h; subst h
    exact readBody_short (by decide) rfl read rest
  split
  · rename_i h; subst h
    exact readBody_short (by decide) rfl read rest
  split
  · rename_i h
    rw [← Char.ofNat_toNat c, h]
    exact readBody_short (by decide) rfl read rest
  split
  · rename_i h
    rw [← Char.ofNat_toNat c, h]
    exact readBody_short (by decide) rfl read rest
  split
  · rename_i h
    have hread := unicodeEscape?_control h rest
    rw [Char.ofNat_toNat] at hread
    exact readBody_unicode hread
  · rename_i hlow
    exact readBody_plain hquote hslash hlow read rest

/-- A written string is read back up to its closing quote. -/
theorem readBody_quoted (cs read rest : List Char) :
    readBody read (cs.flatMap escape ++ '"' :: rest) = some (read.reverse ++ cs, rest) := by
  induction cs generalizing read with
  | nil => simp [readBody_end]
  | cons c cs ih =>
    rw [List.flatMap_cons, List.append_assoc, readBody_escape, ih]
    simp

end ShellTemplate.Json
