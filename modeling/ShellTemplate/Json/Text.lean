import ShellTemplate.Text.Quotation

/-!
# JSON strings

Strings are written with as few escapes as the format allows: the double quote, the backslash and
the controls below the space. Any escape of the format is read.

* `quoted` — the JSON text of a string.
* `readBody` — the string whose JSON text starts here, behind its opening quote.
-/

namespace ShellTemplate.Json

open Text

/-- One character of a JSON string. -/
def escape (c : Char) : List Char :=
  if c = '"' then ['\\', '"']
  else if c = '\\' then ['\\', '\\']
  else if c = '\n' then ['\\', 'n']
  else if c = '\r' then ['\\', 'r']
  else if c = '\t' then ['\\', 't']
  else if c.toNat = 0x08 then ['\\', 'b']
  else if c.toNat = 0x0C then ['\\', 'f']
  else if c.toNat < 0x20 then '\\' :: 'u' :: hex 4 c.toNat
  else [c]

/-- The JSON text of a string. -/
def quoted (cs : List Char) : List Char := '"' :: (cs.flatMap escape ++ ['"'])

/-- The character that a one-letter escape stands for. -/
def unescape? (c : Char) : Option Char :=
  if c = '"' ∨ c = '\\' ∨ c = '/' then some c
  else if c = 'n' then some '\n'
  else if c = 'r' then some '\r'
  else if c = 't' then some '\t'
  else if c = 'b' then some (Char.ofNat 0x08)
  else if c = 'f' then some (Char.ofNat 0x0C)
  else none

/-- The value of a hexadecimal digit. -/
def hexValue? (c : Char) : Option Nat :=
  if c.isDigit then some (c.toNat - '0'.toNat)
  else if 'a' ≤ c ∧ c ≤ 'f' then some (c.toNat - 'a'.toNat + 10)
  else if 'A' ≤ c ∧ c ≤ 'F' then some (c.toNat - 'A'.toNat + 10)
  else none

/-- The number written by four hexadecimal digits, and the rest. -/
def hex4? : List Char → Option (Nat × List Char)
  | a :: b :: c :: d :: rest => do
    let a ← hexValue? a
    let b ← hexValue? b
    let c ← hexValue? c
    let d ← hexValue? d
    return (((a * 16 + b) * 16 + c) * 16 + d, rest)
  | _ => none

/-- Whether a number is the first half of a surrogate pair. -/
def isHighSurrogate (n : Nat) : Bool := 0xD800 ≤ n && n ≤ 0xDBFF

/-- Whether a number is the second half of a surrogate pair. -/
def isLowSurrogate (n : Nat) : Bool := 0xDC00 ≤ n && n ≤ 0xDFFF

/-- The character of a surrogate pair. -/
def ofSurrogates (high low : Nat) : Char :=
  Char.ofNat (0x10000 + (high - 0xD800) * 0x400 + (low - 0xDC00))

/-- The character that a `\u` escape stands for, behind the `u`, and the rest. A first half of a
surrogate pair has to be followed by a second half, and no second half may stand alone. -/
def unicodeEscape? (cs : List Char) : Option (Char × List Char) := do
  let (n, rest) ← hex4? cs
  if isLowSurrogate n then none
  else if isHighSurrogate n then
    match rest with
    | '\\' :: 'u' :: rest =>
      let (m, rest) ← hex4? rest
      if isLowSurrogate m then some (ofSurrogates n m, rest) else none
    | _ => none
  else some (Char.ofNat n, rest)

theorem hex4_rest_lt {cs rest : List Char} {n : Nat} (h : hex4? cs = some (n, rest)) :
    rest.length < cs.length := by
  unfold hex4? at h
  split at h
  · simp only [Option.bind_eq_bind, Option.bind_eq_some_iff, Option.pure_def, Option.some.injEq,
      Prod.mk.injEq] at h
    obtain ⟨_, _, _, _, _, _, _, _, _, rfl⟩ := h
    simp only [List.length_cons]
    omega
  · cases h

/-- An escape takes up at least its digits. -/
theorem unicodeEscape_rest_lt {cs rest : List Char} {c : Char}
    (h : unicodeEscape? cs = some (c, rest)) : rest.length < cs.length := by
  simp only [unicodeEscape?, Option.bind_eq_bind, Option.bind_eq_some_iff, Prod.exists] at h
  obtain ⟨n, tail, first, h⟩ := h
  have first := hex4_rest_lt first
  split at h
  · cases h
  · split at h
    · split at h
      · simp only [Option.bind_eq_some_iff, Prod.exists] at h
        obtain ⟨m, tail', second, h⟩ := h
        have second := hex4_rest_lt second
        split at h
        · simp only [Option.some.injEq, Prod.mk.injEq] at h
          simp only [List.length_cons, ← h.2] at first ⊢
          omega
        · cases h
      · cases h
    · simp only [Option.some.injEq, Prod.mk.injEq] at h
      exact h.2 ▸ first

/-- The string up to its closing quote, and the rest; `none` where it is malformed. The characters
read so far are given in reverse. -/
def readBody (read : List Char) (cs : List Char) : Option (List Char × List Char) :=
  match cs with
  | [] => none
  | '"' :: rest => some (read.reverse, rest)
  | '\\' :: 'u' :: rest =>
    match _found : unicodeEscape? rest with
    | some (c, rest') => readBody (c :: read) rest'
    | none => none
  | '\\' :: c :: rest =>
    match unescape? c with
    | some c => readBody (c :: read) rest
    | none => none
  | c :: rest => if c.toNat < 0x20 then none else readBody (c :: read) rest
termination_by cs.length
decreasing_by
  · have := unicodeEscape_rest_lt _found
    simp only [List.length_cons]
    omega
  · simp only [List.length_cons]
    omega
  · simp

end ShellTemplate.Json
