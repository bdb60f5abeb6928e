import ShellTemplate.Proofs.TemplateGrammar
import ShellTemplate.Template.Scanner

/-!
# A scanner stays in its template and gets on

The readers go through a template in loops: over blanks, over the characters of a bare word, over
those of a quoted text, and over words. A step of the first three takes one character, or two where
a brace is doubled or a character is escaped, and takes none that is not there. From that every call
ends within the template, in no more steps than there are characters from where it starts to where
it stops.

* `Step`, `Step.bounds` — one step of a loop.
* `Run`, `Run.bounds` — a loop from a position to the one at which it has no step left.
* `Moves`, `Moves.bounds` — the loops of a call, whether it succeeds or fails.
* `exists_moves` — the readers move like that, from every position.
* `turns_in_bounds` — the calls of a scanner, in any order, also behind those that failed.
-/

set_option autoImplicit false

namespace ShellTemplate.Template

open Text

/-! ## Steps -/

/-- The loops that take characters. -/
inductive Loop where
  | blanks
  | bare
  | quoted (quote : Char)

/-- A backslash at a position, in front of a character that it escapes. -/
def EscapeAt (t : List Char) (p : Nat) : Prop :=
  t[p]? = some '\\' ∧ (t[p + 1]? = some '"' ∨ t[p + 1]? = some '\\')

/-- A step of a loop, from a position to the next one. -/
inductive Step (t : List Char) : Loop → Nat → Nat → Prop where
  | blank {p : Nat} {c : Char} (here : t[p]? = some c) (blank : isBlank c = true) :
    Step t .blanks p (p + 1)
  | plain {p : Nat} {c : Char} (here : t[p]? = some c) (plain : isPlain c = true) :
    Step t .bare p (p + 1)
  | doubled {p : Nat} {c : Char} (here : t[p]? = some c) (brace : c = '{' ∨ c = '}')
    (again : t[p + 1]? = some c) : Step t .bare p (p + 2)
  | inner {p : Nat} {c quote : Char} (here : t[p]? = some c) (other : c ≠ quote)
    (whole : ¬(quote = '"' ∧ EscapeAt t p)) : Step t (.quoted quote) p (p + 1)
  | escape {p : Nat} (escape : EscapeAt t p) : Step t (.quoted '"') p (p + 2)

variable {t : List Char} {loop : Loop} {p q n : Nat}

theorem lt_length_of_getElem? {c : Char} (h : t[p]? = some c) : p < t.length :=
  (List.getElem?_eq_some_iff.1 h).1

/-- **A step gets on, and not past the end.** -/
theorem Step.bounds (h : Step t loop p q) : p < q ∧ q ≤ t.length := by
  cases h with
  | blank here | plain here | inner here =>
    have hlt := lt_length_of_getElem? here
    omega
  | doubled _ _ again =>
    have hlt := lt_length_of_getElem? again
    omega
  | escape escape =>
    obtain ⟨-, escaped | escaped⟩ := escape <;>
      have hlt := lt_length_of_getElem? escaped <;>
      omega

/-- A loop has no step left at a position. -/
def Halts (t : List Char) (loop : Loop) (p : Nat) : Prop := ∀ q, ¬Step t loop p q

theorem halts_at_end (h : t[p]? = none) : Halts t loop p := by
  intro q hstep
  cases hstep with
  | blank here | plain here | doubled here | inner here =>
    rw [h] at here
    cases here
  | escape escape =>
    rw [EscapeAt, h] at escape
    cases escape.1

theorem halts_blanks {c : Char} (here : t[p]? = some c) (solid : isBlank c = false) :
    Halts t .blanks p := by
  rintro q ⟨here', blank⟩
  rw [here] at here'
  cases here'
  rw [solid] at blank
  cases blank

theorem halts_bare {c : Char} (here : t[p]? = some c) (special : isPlain c = false)
    (single : c = '{' ∨ c = '}' → t[p + 1]? ≠ some c) : Halts t .bare p := by
  intro q hstep
  cases hstep with
  | plain here' plain =>
    rw [here] at here'
    cases here'
    rw [special] at plain
    cases plain
  | doubled here' brace again =>
    rw [here] at here'
    cases here'
    exact single brace again

theorem halts_quoted {quote : Char} (here : t[p]? = some quote) : Halts t (.quoted quote) p := by
  intro q hstep
  cases hstep with
  | inner here' other =>
    rw [here] at here'
    cases here'
    exact other rfl
  | escape escape =>
    have hquote : some '"' = some '\\' := here.symm.trans escape.1
    revert hquote
    decide

/-! ## Runs -/

/-- A run of a loop, with the number of its steps, from a position to one where the loop halts. -/
inductive Run (t : List Char) (loop : Loop) : Nat → Nat → Nat → Prop where
  | halt {p : Nat} (halts : Halts t loop p) : Run t loop 0 p p
  | step {n p q r : Nat} (first : Step t loop p q) (rest : Run t loop n q r) :
    Run t loop (n + 1) p r

/-- **A run stays in the template, and takes a character or more for each of its steps.** -/
theorem Run.bounds (h : Run t loop n p q) (hp : p ≤ t.length) : p + n ≤ q ∧ q ≤ t.length := by
  induction h with
  | halt => omega
  | step first _ ih =>
    have hfirst := first.bounds
    have hrest := ih hfirst.2
    omega

/-! ## Calls -/

/-- How a call moves the scanner, with the number of steps: those of its loops, one for each quote
and one for a placeholder. A call that fails stops where it is. -/
inductive Moves (t : List Char) : Call → Nat → Nat → Nat → Prop where
  | blanks {n p q : Nat} (run : Run t .blanks n p q) : Moves t .blanks n p q
  | bare {n p q : Nat} (run : Run t .bare n p q) : Moves t .bare n p q
  | quoted {n p q : Nat} {quote : Char} (opened : t[p]? = some quote)
    (run : Run t (.quoted quote) n (p + 1) q) (closed : t[q]? = some quote) :
    Moves t .quoted (n + 2) p (q + 1)
  | unclosed {n p : Nat} {quote : Char} (opened : t[p]? = some quote)
    (run : Run t (.quoted quote) n (p + 1) t.length) : Moves t .quoted (n + 1) p t.length
  | noQuote {p : Nat} (atEnd : t[p]? = none) : Moves t .quoted 0 p p
  | placeholder {p q : Nat} {verbatim list : Bool} {name : List Char} (opened : t[p]? = some '{')
    (found : placeholder? (t.drop (p + 1)) = some (verbatim, list, name, t.drop q))
    (inside : q ≤ t.length) : Moves t .word 1 p q
  | noPlaceholder {p : Nat} (opened : t[p]? = some '{')
    (malformed : placeholder? (t.drop (p + 1)) = none) : Moves t .word 0 p p
  | quotedWord {n p q : Nat} (opened : t[p]? = some '\'' ∨ t[p]? = some '"')
    (moves : Moves t .quoted n p q) : Moves t .word n p q
  | bareWord {n p q : Nat} (moves : Moves t .bare n p q) : Moves t .word n p q
  | noWord {p : Nat} (atEnd : t[p]? = none) : Moves t .word 0 p p
  | lastWord {n p q : Nat} (gap : Run t .blanks n p q) (atEnd : t[q]? = none) :
    Moves t .template n p q
  | faultyWord {n m p q r : Nat} (gap : Run t .blanks n p q) (word : Moves t .word m q r) :
    Moves t .template (n + m) p r
  | nextWord {n m k p q r s : Nat} (gap : Run t .blanks n p q) (word : Moves t .word m q r)
    (onwards : q < r) (rest : Moves t .template k r s) : Moves t .template (n + m + k) p s

variable {call : Call}

/-- **A call stays in the template, and takes no more steps than it takes characters.** -/
theorem Moves.bounds (h : Moves t call n p q) (hp : p ≤ t.length) : p + n ≤ q ∧ q ≤ t.length := by
  induction h with
  | blanks run | bare run | lastWord run => exact run.bounds hp
  | quoted opened run closed =>
    have hopened := lt_length_of_getElem? opened
    have hclosed := lt_length_of_getElem? closed
    have hrun := run.bounds hopened
    omega
  | unclosed opened run =>
    have hopened := lt_length_of_getElem? opened
    have hrun := run.bounds hopened
    omega
  | noQuote | noWord | noPlaceholder => omega
  | placeholder opened found inside =>
    have hopened := lt_length_of_getElem? opened
    have hfound := placeholder_rest_lt found
    rw [List.length_drop, List.length_drop] at hfound
    omega
  | quotedWord _ _ ih | bareWord _ ih => exact ih hp
  | faultyWord gap _ ih =>
    have hgap := gap.bounds hp
    have hword := ih hgap.2
    omega
  | nextWord gap _ _ _ ih ih' =>
    have hgap := gap.bounds hp
    have hword := ih hgap.2
    have hrest := ih' hword.2
    omega

/-! ## The readers -/

section Readers

variable {cs rest : List Char} {c : Char}

theorem getElem?_of_drop_eq_cons (h : t.drop p = c :: rest) :
    t[p]? = some c ∧ t.drop (p + 1) = rest := by
  rw [← List.head?_drop, ← List.tail_drop, h]
  exact ⟨rfl, rfl⟩

theorem getElem?_of_drop_eq_nil (h : t.drop p = []) : t[p]? = none := by
  rw [← List.head?_drop, h]
  rfl

theorem run_skipBlanks (h : t.drop p = cs) :
    ∃ n q, Run t .blanks n p q ∧ t.drop q = skipBlanks cs := by
  induction cs generalizing p with
  | nil => exact ⟨0, p, .halt (halts_at_end (getElem?_of_drop_eq_nil h)), h⟩
  | cons c rest ih =>
    obtain ⟨here, hrest⟩ := getElem?_of_drop_eq_cons h
    cases hblank : isBlank c with
    | false =>
      refine ⟨0, p, .halt (halts_blanks here hblank), ?_⟩
      rw [h, skipBlanks, List.dropWhile_cons_of_neg (by simp [hblank])]
    | true =>
      obtain ⟨n, q, hrun, hq⟩ := ih hrest
      refine ⟨n + 1, q, .step (.blank here hblank) hrun, ?_⟩
      rw [hq, skipBlanks, skipBlanks, List.dropWhile_cons_of_pos hblank]

theorem run_bareFrom (read : List Char) (h : t.drop p = cs) :
    ∃ n q, Run t .bare n p q ∧ t.drop q = (bareFrom read cs).rest := by
  -- the induction carries `h`: what is still to be read is the template behind the position
  fun_induction bareFrom read cs generalizing p with
  | case1 read => exact ⟨0, p, .halt (halts_at_end (getElem?_of_drop_eq_nil h)), h⟩
  | case2 read c rest hblank =>
    obtain ⟨here, -⟩ := getElem?_of_drop_eq_cons h
    have hbrace : ¬(c = '{' ∨ c = '}') := by
      rintro (rfl | rfl) <;> exact absurd hblank (by decide)
    have hspecial : isPlain c = false := by simp [isPlain, hblank]
    exact ⟨0, p, .halt (halts_bare here hspecial fun hbrace' => absurd hbrace' hbrace), h⟩
  | case3 read c hblank hbrace =>
    obtain ⟨here, hrest⟩ := getElem?_of_drop_eq_cons h
    refine ⟨0, p, .halt (halts_bare here ?_ fun _ => ?_), h⟩
    · rcases hbrace with rfl | rfl <;> decide
    · rw [getElem?_of_drop_eq_nil hrest]
      exact (Option.some_ne_none c).symm
  | case4 read d rest hblank hbrace ih =>
    obtain ⟨here, hrest⟩ := getElem?_of_drop_eq_cons h
    obtain ⟨again, hrest'⟩ := getElem?_of_drop_eq_cons hrest
    obtain ⟨n, q, hrun, hq⟩ := ih hrest'
    exact ⟨n + 1, q, .step (.doubled here hbrace again) hrun, hq⟩
  | case5 read c hblank hbrace d rest hother =>
    obtain ⟨here, hrest⟩ := getElem?_of_drop_eq_cons h
    obtain ⟨next, -⟩ := getElem?_of_drop_eq_cons hrest
    refine ⟨0, p, .halt (halts_bare here ?_ fun _ => ?_), h⟩
    · rcases hbrace with rfl | rfl <;> decide
    · rw [next]
      exact fun hsame => hother (Option.some.inj hsame)
  | case6 read c rest hblank hbrace hquote =>
    obtain ⟨here, -⟩ := getElem?_of_drop_eq_cons h
    refine ⟨0, p, .halt (halts_bare here ?_ fun hbrace' => absurd hbrace' hbrace), h⟩
    rcases hquote with rfl | rfl <;> decide
  | case7 read c rest hblank hbrace hquote ih =>
    obtain ⟨here, hrest⟩ := getElem?_of_drop_eq_cons h
    obtain ⟨n, q, hrun, hq⟩ := ih hrest
    have hplain : isPlain c = true :=
      isPlain_iff.2 ⟨by simpa using hblank, hbrace, hquote⟩
    exact ⟨n + 1, q, .step (.plain here hplain) hrun, hq⟩

/-- Where the loop over a quoted text halts: at the closing quote, or at the end of the template. -/
def QuoteEnds (t : List Char) (quote : Char) (q : Nat) : Option (List Char × List Char) → Prop
  | some (_, rest) => t[q]? = some quote ∧ t.drop (q + 1) = rest
  | none => q = t.length

theorem run_closeQuote (quote : Char) (read : List Char) (h : t.drop p = cs) (hp : p ≤ t.length) :
    ∃ n q, Run t (.quoted quote) n p q ∧ QuoteEnds t quote q (closeQuote quote read cs) := by
  fun_induction closeQuote quote read cs generalizing p with
  | case1 read =>
    have hend : p = t.length := Nat.le_antisymm hp (List.drop_eq_nil_iff.1 h)
    exact ⟨0, p, .halt (halts_at_end (getElem?_of_drop_eq_nil h)), hend⟩
  | case2 read rest =>
    obtain ⟨here, hrest⟩ := getElem?_of_drop_eq_cons h
    exact ⟨0, p, .halt (halts_quoted here), here, hrest⟩
  | case3 read c hother hbackslash =>
    -- a backslash at the end escapes nothing
    obtain ⟨here, hrest⟩ := getElem?_of_drop_eq_cons h
    have hend : p + 1 = t.length :=
      Nat.le_antisymm (lt_length_of_getElem? here) (List.drop_eq_nil_iff.1 hrest)
    have hnone := getElem?_of_drop_eq_nil hrest
    have hwhole : ¬(quote = '"' ∧ EscapeAt t p) := by
      rintro ⟨-, -, hescaped⟩
      rw [hnone] at hescaped
      rcases hescaped with hnext | hnext <;> cases hnext
    exact ⟨1, p + 1, .step (.inner here hother hwhole) (.halt (halts_at_end hnone)), hend⟩
  | case4 read c hother hbackslash d rest hescaped ih =>
    obtain ⟨here, hrest⟩ := getElem?_of_drop_eq_cons h
    obtain ⟨next, hrest'⟩ := getElem?_of_drop_eq_cons hrest
    obtain ⟨n, q, hrun, hends⟩ := ih hrest' (lt_length_of_getElem? next)
    obtain ⟨rfl, rfl⟩ := hbackslash
    have hescape : EscapeAt t p := by
      refine ⟨here, ?_⟩
      rcases hescaped with rfl | rfl
      · exact .inl next
      · exact .inr next
    exact ⟨n + 1, q, .step (.escape hescape) hrun, hends⟩
  | case5 read c hother hbackslash d rest hescaped ih =>
    obtain ⟨here, hrest⟩ := getElem?_of_drop_eq_cons h
    obtain ⟨next, -⟩ := getElem?_of_drop_eq_cons hrest
    obtain ⟨n, q, hrun, hends⟩ := ih hrest (lt_length_of_getElem? here)
    have hwhole : ¬(quote = '"' ∧ EscapeAt t p) := by
      rintro ⟨-, -, hnext⟩
      rw [next] at hnext
      exact hescaped (hnext.imp Option.some.inj Option.some.inj)
    exact ⟨n + 1, q, .step (.inner here hother hwhole) hrun, hends⟩
  | case6 read c rest hother hbackslash ih =>
    obtain ⟨here, hrest⟩ := getElem?_of_drop_eq_cons h
    obtain ⟨n, q, hrun, hends⟩ := ih hrest (lt_length_of_getElem? here)
    have hwhole : ¬(quote = '"' ∧ EscapeAt t p) := by
      rintro ⟨hquote, hescape, -⟩
      exact hbackslash ⟨hquote, Option.some.inj (here.symm.trans hescape)⟩
    exact ⟨n + 1, q, .step (.inner here hother hwhole) hrun, hends⟩

theorem moves_quoted (h : t.drop p = cs) :
    ∃ n q, Moves t .quoted n p q ∧ t.drop q = (quoted cs).rest := by
  cases cs with
  | nil => exact ⟨0, p, .noQuote (getElem?_of_drop_eq_nil h), h⟩
  | cons quote tail =>
    obtain ⟨opened, htail⟩ := getElem?_of_drop_eq_cons h
    obtain ⟨n, q, hrun, hends⟩ := run_closeQuote quote [] htail (lt_length_of_getElem? opened)
    rw [quoted]
    cases hclose : closeQuote quote [] tail with
    | none =>
      rw [hclose] at hends
      obtain rfl : q = t.length := hends
      exact ⟨n + 1, t.length, .unclosed opened hrun, List.drop_length⟩
    | some closed =>
      rw [hclose] at hends
      exact ⟨n + 2, q + 1, .quoted opened hrun hends.1, hends.2⟩

/-- A fault in the text of a quoted word or behind it, or none, leaves what is read alone. -/
theorem rest_quotedWord (cs : List Char) : (quotedWord cs).rest = (quoted cs).rest := by
  unfold quotedWord
  cases quoted cs with
  | failed fault rest => rfl
  | done text rest =>
    show (if atWordEnd rest = true then _ else _ : Reading Part).rest = rest
    split <;> rfl

theorem rest_bareWord (cs : List Char) : (bareWord cs).rest = (bare cs).rest := by
  unfold bareWord
  cases bare cs with
  | failed fault rest => rfl
  | done text rest =>
    dsimp only
    cases atomOfWord text <;> rfl

theorem rest_placeholderWord (site : List Char) {verbatim list : Bool} {name : List Char}
    (h : placeholder? cs = some (verbatim, list, name, rest)) :
    (placeholderWord site cs).rest = rest := by
  rw [placeholderWord, h]
  show (if atWordEnd rest = true then _ else _ : Reading Part).rest = rest
  split
  · cases refOfText name <;> rfl
  · rfl

theorem moves_placeholderWord (opened : t[p]? = some '{') (h : t.drop (p + 1) = cs) :
    ∃ n q, Moves t .word n p q ∧ t.drop q = (placeholderWord (t.drop p) cs).rest := by
  cases hfound : placeholder? cs with
  | none =>
    refine ⟨0, p, .noPlaceholder opened (h ▸ hfound), ?_⟩
    rw [placeholderWord, hfound]
    rfl
  | some found =>
    obtain ⟨verbatim, list, name, rest⟩ := found
    have hsuffix : rest <:+ cs := by
      refine ⟨markers verbatim list ++ name ++ ['}'], ?_⟩
      rw [(placeholder?_sound hfound).1]
      simp
    have hrest : t.drop (t.length - rest.length) = rest :=
      (List.suffix_iff_eq_drop.1 (hsuffix.trans (h ▸ t.drop_suffix (p + 1)))).symm
    have hfound' : placeholder? (t.drop (p + 1)) =
        some (verbatim, list, name, t.drop (t.length - rest.length)) := by
      rw [h, hrest]
      exact hfound
    refine ⟨1, _, .placeholder opened hfound' (Nat.sub_le _ _), ?_⟩
    rw [rest_placeholderWord _ hfound, hrest]

theorem moves_word (h : t.drop p = cs) :
    ∃ n q, Moves t .word n p q ∧ t.drop q = (word cs).rest := by
  cases cs with
  | nil => exact ⟨0, p, .noWord (getElem?_of_drop_eq_nil h), h⟩
  | cons c tail =>
    obtain ⟨here, htail⟩ := getElem?_of_drop_eq_cons h
    rw [word_cons]
    split
    · rename_i hopened
      rw [hopened.1] at here
      rw [← h]
      exact moves_placeholderWord here htail
    · split
      · rename_i hquote
        obtain ⟨n, q, hmoves, hq⟩ := moves_quoted h
        refine ⟨n, q, .quotedWord ?_ hmoves, hq.trans (rest_quotedWord _).symm⟩
        rw [here]
        exact hquote.imp (congrArg some) (congrArg some)
      · obtain ⟨n, q, hrun, hq⟩ := run_bareFrom [] h
        exact ⟨n, q, .bareWord (.bare hrun), hq.trans (rest_bareWord _).symm⟩

theorem moves_readParts (read : List Part) (h : t.drop p = cs) (hp : p ≤ t.length) :
    ∃ n q, Moves t .template n p q ∧ t.drop q = (readParts read cs).rest := by
  fun_induction readParts read cs generalizing p with
  | case1 read cs hskip =>
    obtain ⟨n, q, hgap, hq⟩ := run_skipBlanks h
    rw [hskip] at hq
    exact ⟨n, q, .lastWord hgap (getElem?_of_drop_eq_nil hq), hq⟩
  | case2 read cs c rest hskip fault rest' hword =>
    obtain ⟨n, q, hgap, hq⟩ := run_skipBlanks h
    rw [hskip] at hq
    obtain ⟨m, r, hmoves, hr⟩ := moves_word hq
    rw [hword] at hr
    exact ⟨n + m, r, .faultyWord hgap hmoves, hr⟩
  | case3 read cs c rest hskip part rest' hword ih =>
    obtain ⟨n, q, hgap, hq⟩ := run_skipBlanks h
    rw [hskip] at hq
    obtain ⟨m, r, hmoves, hr⟩ := moves_word hq
    rw [hword] at hr
    -- the outer loop ends because a word that is read gets on
    have honwards := word_rest_lt (not_isBlank_of_skipBlanks hskip) hword
    rw [← hq, ← show t.drop r = rest' from hr, List.length_drop, List.length_drop] at honwards
    obtain ⟨k, s, hrest, hs⟩ := ih hr (hmoves.bounds (hgap.bounds hp).2).2
    exact ⟨n + m + k, s, .nextWord hgap hmoves (by omega) hrest, hs⟩

/-- **The readers move through a template in such steps**, from every position, and what is left to
be read is the text behind the position. -/
theorem exists_moves (call : Call) (hp : p ≤ t.length) :
    ∃ n q, Moves t call n p q ∧ t.drop q = (call.read (t.drop p)).rest := by
  cases call with
  | blanks =>
    obtain ⟨n, q, hrun, hq⟩ := run_skipBlanks (rfl : t.drop p = _)
    exact ⟨n, q, .blanks hrun, hq⟩
  | bare =>
    obtain ⟨n, q, hrun, hq⟩ := run_bareFrom [] (rfl : t.drop p = _)
    exact ⟨n, q, .bare hrun, hq.trans (Reading.rest_map _ _).symm⟩
  | word =>
    rw [Call.read, Reading.rest_map]
    exact moves_word rfl
  | quoted =>
    rw [Call.read, Reading.rest_map]
    exact moves_quoted rfl
  | template =>
    rw [Call.read, Reading.rest_map]
    exact moves_readParts [] rfl hp

/-- All words are read only if nothing is left. -/
theorem rest_eq_nil_of_readParts {read parts : List Part}
    (h : readParts read cs = .done parts rest) : rest = [] := by
  fun_induction readParts read cs with
  | case1 read cs hskip => cases h; rfl
  | case2 => cases h
  | case3 read cs c tail hskip part rest' hword ih => exact ih h

end Readers

theorem Reading.map_eq_done {α β : Type} {f : α → β} {r : Reading α} {b : β} {rest : List Char}
    (h : r.map f = .done b rest) : ∃ a, r = .done a rest := by
  cases r with
  | failed => cases h
  | done a rest' =>
    cases h
    exact ⟨a, rfl⟩

/-! ## Calls one after the other -/

/-- A call keeps to the template and gets on. -/
structure Turn.InBounds (t : List Char) (turn : Turn) : Prop where
  moves : ∃ n, Moves t turn.call n turn.start turn.stop ∧ turn.start + n ≤ turn.stop
  inside : turn.stop ≤ t.length
  rest : turn.outcome.rest = t.drop turn.stop
  word : turn.call = .word → ∀ answer rest, turn.outcome = .done answer rest →
    ∀ c, t[turn.start]? = some c → isBlank c = false →
      turn.start < turn.stop ∧ atWordEnd (t.drop turn.stop) = true
  template : turn.call = .template → ∀ answer rest, turn.outcome = .done answer rest →
    turn.stop = t.length

theorem inBounds_turn (call : Call) (hp : p ≤ t.length) : (call.turn t p).InBounds t := by
  obtain ⟨n, q, hmoves, hq⟩ := exists_moves call hp
  obtain ⟨hn, hinside⟩ := hmoves.bounds hp
  have hstop : (call.turn t p).stop = q := by
    show t.length - (call.read (t.drop p)).rest.length = q
    rw [← hq, List.length_drop]
    omega
  refine ⟨⟨n, ?_, ?_⟩, ?_, ?_, ?_, ?_⟩
  · rw [hstop]
    exact hmoves
  · rw [hstop]
    exact hn
  · rw [hstop]
    exact hinside
  · rw [hstop]
    exact hq.symm
  · rintro rfl answer rest hdone c here solid
    obtain ⟨part, hword⟩ := Reading.map_eq_done hdone
    have hhere : t[p]? = some c := here
    obtain ⟨hlt, rfl⟩ := List.getElem?_eq_some_iff.1 hhere
    have hrest : t.drop q = rest := hq.trans (congrArg Reading.rest hdone)
    rw [List.drop_eq_getElem_cons hlt, ← hrest] at hword
    obtain ⟨_, -, -, hend⟩ := word_sound solid hword
    have honwards := word_rest_lt solid hword
    rw [← List.drop_eq_getElem_cons hlt, List.length_drop, List.length_drop] at honwards
    rw [hstop]
    have hpq : p < q := by omega
    exact ⟨hpq, hend⟩
  · rintro rfl answer rest hdone
    obtain ⟨parts, hparts⟩ := Reading.map_eq_done hdone
    have hrest : t.drop q = rest := hq.trans (congrArg Reading.rest hdone)
    rw [rest_eq_nil_of_readParts hparts, List.drop_eq_nil_iff] at hrest
    rw [hstop]
    exact Nat.le_antisymm hinside hrest

variable {calls : List Call}

theorem inBounds_turns (hp : p ≤ t.length) : ∀ turn ∈ turns t p calls, turn.InBounds t := by
  induction calls generalizing p with
  | nil => rintro turn ⟨⟩
  | cons call calls ih =>
    have hfirst := inBounds_turn call hp
    rw [turns, List.forall_mem_cons]
    exact ⟨hfirst, ih hfirst.inside⟩

theorem isChain_turns (hp : p ≤ t.length) :
    List.IsChain (· ≤ ·) (p :: (turns t p calls).map Turn.stop) := by
  induction calls generalizing p with
  | nil => exact .singleton p
  | cons call calls ih =>
    have hfirst := inBounds_turn call hp
    obtain ⟨n, -, hn⟩ := hfirst.moves
    have hle : p ≤ (call.turn t p).stop := Nat.le_trans (Nat.le_add_right p n) hn
    rw [turns, List.map_cons]
    exact .cons_cons hle (ih hfirst.inside)

theorem map_call_turns (t : List Char) (p : Nat) (calls : List Call) :
    (turns t p calls).map Turn.call = calls := by
  induction calls generalizing p with
  | nil => rfl
  | cons call calls ih => exact congrArg (call :: ·) (ih _)

/-- **A scanner stays in its template and gets on**, whatever is called in whatever order, and also
behind calls that failed. Every call takes no more steps than characters and ends at a position of
the template that is no earlier one. A word that is read from a character that is not blank takes a
character or more and ends at a blank or at the end; all words are read at the end only. No step of
one character or two leads past the end. -/
theorem turns_in_bounds (t : List Char) (calls : List Call) :
    (∀ loop p q, Step t loop p q → p < q ∧ q ≤ t.length) ∧
    ∀ p, p ≤ t.length →
      (turns t p calls).map Turn.call = calls ∧
      (p :: (turns t p calls).map Turn.stop).Pairwise (· ≤ ·) ∧
      ∀ turn ∈ turns t p calls, turn.InBounds t := by
  refine ⟨?_, ?_⟩
  · intro loop p q hstep
    exact hstep.bounds
  · intro p hp
    exact ⟨map_call_turns t p calls, List.isChain_iff_pairwise.1 (isChain_turns hp),
      inBounds_turns hp⟩

/-- A template with a fault in each of its three words. -/
def faultyWords : List Char := "\x7ba\x7db c\x7b\x7b\x7d \"e\\\"".toList

/-- Calls that go on behind their faults, one of them with a brace for a quote. -/
def stubbornCalls : List Call := [.word, .bare, .blanks, .bare, .quoted, .template, .word]

theorem stubbornCalls_in_bounds :
    (turns faultyWords 0 stubbornCalls).map Turn.stop = [3, 4, 5, 8, 14, 14, 14] ∧
      Step faultyWords .bare 6 8 ∧ (6 < 8 ∧ 8 ≤ faultyWords.length) ∧
      (turns faultyWords 0 stubbornCalls).map Turn.call = stubbornCalls ∧
      (0 :: (turns faultyWords 0 stubbornCalls).map Turn.stop).Pairwise (· ≤ ·) ∧
      ∀ turn ∈ turns faultyWords 0 stubbornCalls, turn.InBounds faultyWords := by
  obtain ⟨hsteps, hturns⟩ := turns_in_bounds faultyWords stubbornCalls
  have hdoubled : Step faultyWords .bare 6 8 := .doubled rfl (.inl rfl) rfl
  have hstops : (turns faultyWords 0 stubbornCalls).map Turn.stop = [3, 4, 5, 8, 14, 14, 14] := by
    decide +kernel
  exact ⟨hstops, hdoubled, hsteps _ _ _ hdoubled, hturns 0 (Nat.zero_le _)⟩

end ShellTemplate.Template
