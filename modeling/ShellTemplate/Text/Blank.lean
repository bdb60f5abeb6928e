/-!
# Blank characters

The white space that separates the words of a template and that may not surround the text of a
number.

* `isBlank_of_isWhitespace` — every character that the core library calls white space is blank.
* `trim_of_not_blank` — a text that neither starts nor ends with a blank is left as it is.
-/

namespace ShellTemplate.Text

/-- The blank characters: the ASCII controls that move or separate, the space, and the Unicode
spaces and line separators. -/
def isBlank (c : Char) : Bool :=
  let n := c.toNat
  (0x09 ≤ n && n ≤ 0x0D) || (0x1C ≤ n && n ≤ 0x20) || n == 0x85 || n == 0xA0 || n == 0x1680 ||
    (0x2000 ≤ n && n ≤ 0x200A) || n == 0x2028 || n == 0x2029 || n == 0x202F || n == 0x205F ||
    n == 0x3000

/-- The blank class is no smaller than the core library's. -/
theorem isBlank_of_isWhitespace {c : Char} (h : c.isWhitespace = true) : isBlank c = true := by
  simp only [Char.isWhitespace, Bool.or_eq_true, decide_eq_true_eq] at h
  rcases h with ((h | h) | h) | h <;> subst h <;> decide

/-- The text from its first character that is not blank on. -/
def trimLeft (cs : List Char) : List Char := cs.dropWhile isBlank

/-- The text without the blanks around it. -/
def trim (cs : List Char) : List Char := (trimLeft (trimLeft cs).reverse).reverse

theorem trimLeft_cons_of_not_blank {c : Char} (h : isBlank c = false) (cs : List Char) :
    trimLeft (c :: cs) = c :: cs := by
  simp [trimLeft, h]

/-- Trimming changes nothing where neither end is blank. -/
theorem trim_of_not_blank {cs : List Char} (first : ∀ c ∈ cs.head?, isBlank c = false)
    (last : ∀ c ∈ cs.getLast?, isBlank c = false) : trim cs = cs := by
  have front : trimLeft cs = cs := by
    cases cs with
    | nil => rfl
    | cons c rest => exact trimLeft_cons_of_not_blank (first c (by simp)) rest
  have back : trimLeft cs.reverse = cs.reverse := by
    cases h : cs.reverse with
    | nil => rfl
    | cons c rest =>
      refine trimLeft_cons_of_not_blank (last c ?_) rest
      rw [← List.head?_reverse, h]
      simp
  simp [trim, front, back]

end ShellTemplate.Text
