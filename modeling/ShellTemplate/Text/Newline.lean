/-!
# Line ends

Lines of a text may end in a line feed, in a carriage return, or in both.

* `unifyNewlines_eq_self` — a text without carriage returns is left as it is.
-/

namespace ShellTemplate.Text

/-- The text with a line feed for each end of a line. -/
def unifyNewlines : List Char → List Char
  | [] => []
  | '\r' :: '\n' :: rest => '\n' :: unifyNewlines rest
  | c :: rest => (if c = '\r' then '\n' else c) :: unifyNewlines rest

theorem unifyNewlines_eq_self {cs : List Char} (h : '\r' ∉ cs) : unifyNewlines cs = cs := by
  fun_induction unifyNewlines cs with
  | case1 => rfl
  | case2 => simp at h
  | case3 c rest _ ih =>
    simp only [List.mem_cons, not_or] at h
    rw [if_neg (fun e => h.1 e.symm), ih h.2]

/-- A text without the line feed at its end. -/
def dropLastNewline (cs : List Char) : List Char :=
  if cs.getLast? = some '\n' then cs.dropLast else cs

end ShellTemplate.Text
