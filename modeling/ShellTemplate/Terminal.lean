/-!
# Terminal output

Where output does not go to a terminal, the escape sequences that move or colour on a terminal are
left out of it.

* `withoutEscapes_eq_self` — a text without the escape character is left as it is.
* `echo`, `echoRed` — a line of output, and one in red.
-/

namespace ShellTemplate.Terminal

/-- The character that starts an escape sequence. -/
def escapeChar : Char := Char.ofNat 0x1B

/-- What stands between the bracket and the letter of an escape sequence. -/
def isParameter (c : Char) : Bool := c.isDigit || c = ';' || c = '?'

/-- The text behind the escape sequence that starts here: the escape character, a bracket,
parameters and a letter. -/
def behindEscape? : List Char → Option (List Char)
  | c :: '[' :: rest =>
    if c = escapeChar then
      match rest.dropWhile isParameter with
      | d :: tail => if d.isAlpha then some tail else none
      | [] => none
    else none
  | _ => none

theorem behindEscape_lt {cs rest : List Char} (h : behindEscape? cs = some rest) :
    rest.length < cs.length := by
  unfold behindEscape? at h
  split at h
  · rename_i c tail
    split at h
    · split at h
      · rename_i d tail' found
        split at h
        · cases h
          have := (List.dropWhile_sublist isParameter (l := tail)).length_le
          simp only [found, List.length_cons] at this ⊢
          omega
        · cases h
      · cases h
    · cases h
  · cases h

/-- The text without its escape sequences. -/
def withoutEscapes (cs : List Char) : List Char :=
  match _found : behindEscape? cs with
  | some rest => withoutEscapes rest
  | none =>
    match cs with
    | [] => []
    | c :: rest => c :: withoutEscapes rest
termination_by cs.length
decreasing_by
  · exact behindEscape_lt _found
  · simp

theorem behindEscape_eq_none {cs : List Char} (h : escapeChar ∉ cs) : behindEscape? cs = none := by
  unfold behindEscape?
  split
  · rw [if_neg (fun e => h (by simp [e]))]
  · rfl

theorem withoutEscapes_eq_self {cs : List Char} (h : escapeChar ∉ cs) : withoutEscapes cs = cs := by
  fun_induction withoutEscapes cs with
  | case1 cs rest found _ => rw [behindEscape_eq_none h] at found; cases found
  | case2 => rfl
  | case3 c rest _ ih => rw [ih fun e => h (List.mem_cons_of_mem c e)]

/-- A line of output; it keeps its escape sequences on a terminal only. -/
def echo (terminal : Bool) (line : String) : String :=
  (if terminal then line else String.ofList (withoutEscapes line.toList)) ++ "\n"

/-- A line in red. -/
def red (line : String) : String := "\x1b[31m" ++ line ++ "\x1b[0m"

/-- A line of output in red; the colour is seen on a terminal only. -/
def echoRed (terminal : Bool) (line : String) : String := echo terminal (red line)

/-- Which of the two streams of a program go to a terminal. -/
structure Streams where
  output : Bool
  errors : Bool
deriving DecidableEq, Repr

end ShellTemplate.Terminal
