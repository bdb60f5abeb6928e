import ShellTemplate.Proofs.RefusedTemplates

/-!
# The column of a fault

A text that breaks a rule is refused with a column. The readers find a fault where they are, or go
back to the start of the word after they have read on. Either way the column is that of a brace or a
quote in the first word that cannot be read: what stands in front of this word is a template, and no
text that goes on into it is one.

* `ComesTo.parse_ne_ok` — a text that goes on into a refused word is no template.
* `ComesTo.unreadableFrom` — the word that is refused is the first one that cannot be read.
* `parse_fault_in_first_unreadable_word` — the column of a fault lies in that word.
-/

set_option autoImplicit false

namespace ShellTemplate.Template

open Text

/-- A word may start at a position of a text: at the start of the text, or behind a blank. -/
def StartsAt (cs : List Char) (k : Nat) : Prop :=
  k = 0 ∨ ∃ d, cs[k - 1]? = some d ∧ isBlank d = true

/-- The first word of a text that cannot be read starts at a position. What stands in front of it is
a template, and no text is one that goes on behind the position and ends in front of a blank or at
the end. -/
structure UnreadableFrom (t : String) (k : Nat) : Prop where
  starts : StartsAt t.toList k
  front : ∃ parts, parse (String.ofList (t.toList.take k)) = .ok parts
  maximal : ∀ j, k < j → j ≤ t.length → atWordEnd (t.toList.drop j) = true →
    ∀ parts, parse (String.ofList (t.toList.take j)) ≠ .ok parts

section Words

variable {cs site rest : List Char} {fault : Fault}

/-- A place that reading comes to is at a position where a word may start, and what stands in front
of it is a template. -/
theorem ComesTo.exists_front (h : ComesTo cs site) :
    ∃ front parts, cs = front ++ site ∧ StartsAt cs front.length ∧
      parse (String.ofList front) = .ok parts := by
  cases h with
  | @behind front gap tail parts c template blank apart solid =>
    refine ⟨front ++ gap, parts, rfl, ?_, ?_⟩
    · rcases List.eq_nil_or_concat gap with rfl | ⟨gap, d, rfl⟩
      · left
        obtain rfl : front = [] := by simpa using apart
        rfl
      · right
        refine ⟨d, ?_, blank d (by simp)⟩
        simp
    · obtain ⟨left, hread⟩ := parse_ofList_eq_ok_iff.1 template
      have hend : atWordEnd gap = true := by
        cases gap with
        | nil => rfl
        | cons d gap => exact blank d List.mem_cons_self
      rw [parse_ofList_eq_ok_iff, readParts_append hread hend]
      refine ⟨[], ?_⟩
      rw [readParts_end (dropWhile_all blank), List.reverse_reverse]

/-- The start of a text that is longer than a front goes on behind it. -/
theorem exists_mid_of_append_eq {front behind start tail : List Char} {c : Char}
    (hsplit : front ++ c :: behind = start ++ tail) (hlong : front.length < start.length) :
    ∃ mid, start = front ++ c :: mid ∧ behind = mid ++ tail := by
  rcases List.append_eq_append_iff.1 hsplit with ⟨more, hstart, hmore⟩ | ⟨more, hfront, -⟩
  · cases more with
    | nil =>
      rw [hstart, List.append_nil] at hlong
      omega
    | cons d more =>
      rw [List.cons_append, List.cons.injEq] at hmore
      obtain ⟨rfl, hmore⟩ := hmore
      exact ⟨more, hstart, hmore⟩
  · rw [hfront, List.length_append] at hlong
    omega

/-- **A text that goes on into a refused word is no template**, if it ends in front of a blank or at
the end: a word that is read there would be read in the whole text as well. -/
theorem ComesTo.parse_ne_ok {start tail : List Char} (h : ComesTo cs site)
    (hword : word site = .failed fault rest) (hsplit : cs = start ++ tail)
    (hend : atWordEnd tail = true) (hlong : cs.length < start.length + site.length)
    (parts : List Part) : parse (String.ofList start) ≠ .ok parts := by
  cases h with
  | @behind front gap behind parts' c template blank apart solid =>
    -- the text ends behind the first character of the word
    have hstart : (front ++ gap).length < start.length := by
      simp only [List.length_append, List.length_cons] at hlong ⊢
      omega
    obtain ⟨mid, rfl, rfl⟩ := exists_mid_of_append_eq hsplit hstart
    intro hok
    obtain ⟨left, hread⟩ := parse_ofList_eq_ok_iff.1 hok
    cases hstart : word (c :: mid) with
    | done part left' =>
      have hwhole := word_append solid hstart hend
      rw [List.cons_append] at hwhole
      rw [hwhole] at hword
      cases hword
    | failed fault' rest' =>
      have hfailed : readParts [] (front ++ gap ++ c :: mid) = .failed fault' rest' :=
        readParts_failed_iff.2 ⟨c :: mid, .behind template blank apart solid, hstart⟩
      rw [hfailed] at hread
      cases hread

/-- **The word that is refused is the first one that cannot be read.** -/
theorem ComesTo.unreadableFrom {t : String} {front : List Char} {parts : List Part}
    (h : ComesTo t.toList site) (hword : word site = .failed fault rest)
    (hfront : t.toList = front ++ site) (hstarts : StartsAt t.toList front.length)
    (hparts : parse (String.ofList front) = .ok parts) : UnreadableFrom t front.length where
  starts := hstarts
  front := by
    refine ⟨parts, ?_⟩
    rw [hfront, List.take_left]
    exact hparts
  maximal := by
    intro j hj hle hend
    apply h.parse_ne_ok hword (List.take_append_drop j _).symm hend
    rw [← String.length_toList] at hle
    rw [List.length_take, Nat.min_eq_left hle, hfront, List.length_append]
    omega

end Words

/-- **The column of a fault lies in the first word that cannot be read.** It is that of a brace or
a quote of the text, and there is no blank between the start of the word and the column. -/
theorem parse_fault_in_first_unreadable_word {t template : String} {fault : SyntaxFault}
    {column : Option Nat} (h : parse t = .error (.templateFault fault template column)) :
    template = t ∧ ∃ c, column = some c ∧ c < t.length ∧
      (∃ mark, t.toList[c]? = some mark ∧ IsMark mark) ∧
      ∃ k ≤ c, (∀ d ∈ (t.toList.take c).drop k, isBlank d = false) ∧ UnreadableFrom t k := by
  obtain ⟨site, fault', rest, hsite, hfailed, herror⟩ := parse_eq_error_iff_comesTo.1 h
  obtain ⟨f, place, rfl⟩ : ∃ f place, fault' = .broken f place := by
    cases fault' with
    | broken f place => exact ⟨f, place, rfl⟩
    | atEnd | longPosition | badNumber => cases herror
  rw [Fault.toError, String.ofList_toList] at herror
  cases herror
  obtain ⟨front, parts, hfront, hstarts, hparts⟩ := hsite.exists_front
  have hunreadable := hsite.unreadableFrom hfailed hfront hstarts hparts
  cases word_marked hfailed with
  | @behind inside behind c solid mark =>
    have htext : t.toList = (front ++ inside) ++ c :: behind := by
      rw [hfront, List.append_assoc]
    have hcolumn : t.toList.length - (c :: behind).length = (front ++ inside).length := by
      rw [htext, List.length_append]
      omega
    rw [hcolumn]
    refine ⟨rfl, _, rfl, ?_, ⟨c, ?_, mark⟩, front.length, ?_, ?_, hunreadable⟩
    · rw [← String.length_toList, htext]
      simp only [List.length_append, List.length_cons]
      omega
    · rw [htext]
      simp
    · rw [List.length_append]
      omega
    · rw [htext, List.take_left, List.drop_left]
      exact solid

/-- A text whose second word ends with a brace that is not doubled. -/
def strayBrace : String := "'a b' c\x7b\x7bd\x7d \x7b0\x7d"

theorem strayBrace_fault_in_second_word :
    parse strayBrace = .error (.templateFault (.looseBrace '}') strayBrace (some 10)) ∧
      ∃ k ≤ 10, (∀ d ∈ (strayBrace.toList.take 10).drop k, isBlank d = false) ∧
        UnreadableFrom strayBrace k := by
  have h : parse strayBrace =
      .error (.templateFault (.looseBrace '}') strayBrace (some 10)) := by
    have hchars : strayBrace.toList = ['\'', 'a', ' ', 'b', '\'', ' ', 'c', '{', '{', 'd', '}', ' ',
        '{', '0', '}'] := rfl
    have hfirst : word
        ['\'', 'a', ' ', 'b', '\'', ' ', 'c', '{', '{', 'd', '}', ' ', '{', '0', '}'] =
          .done (.literal (.text "a b")) [' ', 'c', '{', '{', 'd', '}', ' ', '{', '0', '}'] := rfl
    have hbare : bareFrom [] ['c', '{', '{', 'd', '}', ' ', '{', '0', '}'] =
          .failed (.broken (.looseBrace '}') ['}', ' ', '{', '0', '}'])
            ['}', ' ', '{', '0', '}'] := by
      rw [bareFrom_plain rfl, bareFrom_brace (.inl rfl), bareFrom_plain rfl, bareFrom.eq_def]
      rfl
    have hsecond : word ['c', '{', '{', 'd', '}', ' ', '{', '0', '}'] =
          .failed (.broken (.looseBrace '}') ['}', ' ', '{', '0', '}'])
            ['}', ' ', '{', '0', '}'] := by
      show bareWord _ = _
      rw [bareWord, bare, hbare]
    rw [parse, hchars, readParts_word rfl hfirst, readParts_failed rfl hsecond]
    rfl
  obtain ⟨-, c, hc, -, -, hword⟩ := parse_fault_in_first_unreadable_word h
  cases hc
  exact ⟨h, hword⟩

end ShellTemplate.Template
