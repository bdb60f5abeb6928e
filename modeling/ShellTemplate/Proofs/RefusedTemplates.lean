import ShellTemplate.Proofs.TemplateComposition

/-!
# How templates are refused

A text that is no template is refused at the first word that cannot be read. Most words are refused
for breaking a rule, with the column in the text. Two kinds of words break no rule and are refused
all the same, without a place: a placeholder whose position has more digits than a whole number may
be read from, and a bare number whose exponents are outside the limits.

* `readParts_failed_iff` — the reader stops at a word that cannot be read, behind a template.
* `word_longPosition_iff`, `word_badNumber_iff` — the words that are refused without a place.
* `parse_eq_error_iff_comesTo` — an error is that of the first word that cannot be read.
* `parse_refused_at_column_or_overlong` — which errors there are, and for which texts.
-/

set_option autoImplicit false

namespace ShellTemplate.Template

open Text Number

/-! ## Where the reader stops -/

/-- Reading a text comes to a place in it: what stands in front is a template, set apart by blanks,
and the place is not blank. -/
inductive ComesTo : List Char → List Char → Prop where
  | behind {front gap cs : List Char} {parts : List Part} {c : Char}
    (template : parse (String.ofList front) = .ok parts) (blank : ∀ d ∈ gap, isBlank d = true)
    (apart : front = [] ∨ gap ≠ []) (solid : isBlank c = false) :
    ComesTo (front ++ gap ++ c :: cs) (c :: cs)

/-- Reading a text comes to a word, which ends there. -/
def ComesToWord (cs source : List Char) : Prop :=
  ∃ rest, ComesTo cs (source ++ rest) ∧ atWordEnd rest = true

section Stops

variable {cs site rest : List Char} {fault : Fault}

theorem parse_ofList_eq_ok_iff {parts : List Part} :
    parse (String.ofList cs) = .ok parts ↔ ∃ rest, readParts [] cs = .done parts rest := by
  rw [parse_eq_ok_iff, String.toList_ofList]

theorem parse_ofList_nil : parse (String.ofList []) = .ok [] :=
  parse_ofList_eq_ok_iff.2 ⟨[], readParts_end rfl⟩

/-- In front of a place that begins with a word, reading comes to what it comes to there. -/
theorem ComesTo.cons {gap source : List Char} {part : Part} (h : ComesTo rest site)
    (blank : ∀ d ∈ gap, isBlank d = true) (hword : WordOf source part)
    (hread : word (source ++ rest) = .done part rest) (hend : atWordEnd rest = true) :
    ComesTo (gap ++ source ++ rest) site := by
  cases h with
  | @behind front gap' cs parts c template blank' apart solid =>
    obtain ⟨d, tail, hsource, hd⟩ := hword.head
    have hfront : atWordEnd front = true := by
      cases front with
      | nil => rfl
      | cons e front => exact hend
    -- the word ends in front of the place, so there are blanks between them
    have hgap : gap' ≠ [] := by
      rintro rfl
      obtain rfl : front = [] := by simpa using apart
      rw [List.append_nil, List.nil_append, atWordEnd, solid] at hend
      cases hend
    obtain ⟨left, hleft⟩ := parse_ofList_eq_ok_iff.1 template
    have hskip : skipBlanks (gap ++ source ++ front) = d :: (tail ++ front) := by
      rw [List.append_assoc, hsource]
      exact skipBlanks_gap blank (forall_head_cons hd _)
    -- the word is also read where the text is cut off in front of the blanks
    have hnext : word (d :: (tail ++ front)) = .done part front := by
      have hsame := hword.word_eq_done hend hfront hread
      rwa [hsource] at hsame
    have hbefore := readParts_before [] [part] front
    rw [List.nil_append, hleft] at hbefore
    have htemplate : parse (String.ofList (gap ++ source ++ front)) = .ok (part :: parts) := by
      rw [parse_ofList_eq_ok_iff]
      refine ⟨left, ?_⟩
      rw [readParts_word hskip hnext]
      exact hbefore
    have hassoc : gap ++ source ++ (front ++ gap' ++ c :: cs) =
        gap ++ source ++ front ++ gap' ++ c :: cs := by simp
    rw [hassoc]
    exact .behind htemplate blank' (Or.inr hgap) solid

theorem comesTo_of_readParts_failed {read : List Part}
    (h : readParts read cs = .failed fault rest) :
    ∃ site, ComesTo cs site ∧ word site = .failed fault rest := by
  fun_induction readParts read cs with
  | case1 => cases h
  | case2 read cs c tail hskip fault' rest' hword =>
    cases h
    obtain ⟨gap, blank, hgap⟩ := exists_gap cs
    refine ⟨c :: tail, ?_, hword⟩
    rw [hgap, hskip]
    exact .behind parse_ofList_nil blank (Or.inl rfl) (not_isBlank_of_skipBlanks hskip)
  | case3 read cs c tail hskip part rest' hword ih =>
    obtain ⟨site, hsite, hfailed⟩ := ih h
    obtain ⟨gap, blank, hgap⟩ := exists_gap cs
    obtain ⟨source, hsource, hw, hend⟩ := word_sound (not_isBlank_of_skipBlanks hskip) hword
    refine ⟨site, ?_, hfailed⟩
    rw [hgap, hskip, hsource, ← List.append_assoc]
    exact hsite.cons blank hw (hsource ▸ hword) hend

/-- **The reader stops at a word that cannot be read**, behind a template. -/
theorem readParts_failed_iff :
    readParts [] cs = .failed fault rest ↔
      ∃ site, ComesTo cs site ∧ word site = .failed fault rest := by
  constructor
  · exact comesTo_of_readParts_failed
  · rintro ⟨site, hsite, hfailed⟩
    cases hsite with
    | @behind front gap tail parts c template blank apart solid =>
      obtain ⟨left, hleft⟩ := parse_ofList_eq_ok_iff.1 template
      have hskip : skipBlanks (gap ++ c :: tail) = c :: tail :=
        skipBlanks_gap blank (forall_head_cons solid tail)
      rcases apart with rfl | hgap
      · exact readParts_failed hskip hfailed
      · have hend : atWordEnd (gap ++ c :: tail) = true := by
          obtain ⟨d, gap, rfl⟩ := List.exists_cons_of_ne_nil hgap
          exact blank d List.mem_cons_self
        rw [List.append_assoc, readParts_append hleft hend]
        exact readParts_failed hskip hfailed

end Stops

/-! ## Words without a place -/

section Words

variable {c : Char} {cs rest : List Char}

/-- A placeholder whose position has too many digits, and how many. -/
inductive OverlongPosition : List Char → Nat → Prop where
  | intro {ds : List Char} (verbatim list : Bool) (digits : IsDigits ds)
    (long : maxDigits < ds.length) :
    OverlongPosition ('{' :: (markers verbatim list ++ ds ++ ['}'])) ds.length

/-- A bare number whose exponents are outside the limits. -/
structure NumberOutside (text : List Char) : Prop where
  number : LooksLikeNumber text
  outside : isNumeral (String.ofList text) = false

theorem word_longPosition_iff {width : Nat} :
    word (c :: cs) = .failed (.longPosition width) rest ↔
      ∃ source, c :: cs = source ++ rest ∧ OverlongPosition source width ∧
        atWordEnd rest = true := by
  constructor
  · intro h
    have hrefusal := word_refusal h
    generalize hcs : c :: cs = text at hrefusal
    cases hrefusal with
    | position verbatim list digits long hend =>
      exact ⟨_, rfl, .intro verbatim list digits long, hend⟩
  · rintro ⟨source, hsource, ⟨verbatim, list, digits, long⟩, hend⟩
    rw [hsource, word_placeholder (.position digits) verbatim list hend]
    rcases refOfText_of_refOf (.position digits) with hok | ⟨-, -, herror⟩
    · rw [refOfText, if_pos (List.all_eq_true.2 digits.2), if_pos long] at hok
      cases hok
    · rw [herror]

theorem word_badNumber_iff {text : String} :
    word (c :: cs) = .failed (.badNumber text) rest ↔
      c :: cs = text.toList ++ rest ∧ NumberOutside text.toList ∧ atWordEnd rest = true := by
  constructor
  · intro h
    have hrefusal := word_refusal h
    generalize hcs : c :: cs = start at hrefusal
    generalize hfault : Fault.badNumber text = fault at hrefusal
    cases hrefusal with
    | broken => cases hfault
    | position => cases hfault
    | number number outside hend =>
      cases hfault
      rw [String.toList_ofList]
      exact ⟨rfl, ⟨number, outside⟩, hend⟩
  · rintro ⟨hsource, ⟨number, outside⟩, hend⟩
    rw [String.ofList_toList] at outside
    rw [hsource, word_bare (bareOf_number number) number.ne_nil hend, atomOfWord_number number,
      String.ofList_toList, outside]
    rfl

end Words

/-! ## The errors of texts that are no templates -/

/-- **An error is that of the first word that cannot be read.** -/
theorem parse_eq_error_iff_comesTo {t : String} {e : Error} :
    parse t = .error e ↔ ∃ site fault rest, ComesTo t.toList site ∧
      word site = .failed fault rest ∧ e = fault.toError t.toList := by
  rw [parse_eq_error_iff]
  constructor
  · rintro ⟨fault, rest, hread, rfl⟩
    obtain ⟨site, hsite, hfailed⟩ := readParts_failed_iff.1 hread
    exact ⟨site, fault, rest, hsite, hfailed, rfl⟩
  · rintro ⟨site, fault, rest, hsite, hfailed, rfl⟩
    exact ⟨fault, rest, readParts_failed_iff.2 ⟨site, hsite, hfailed⟩, rfl⟩

theorem ComesTo.exists_cons {cs site : List Char} (h : ComesTo cs site) :
    ∃ c tail, site = c :: tail := by
  cases h with
  | behind => exact ⟨_, _, rfl⟩

/-- **A position with too many digits** is the reason of an error about a whole number. -/
theorem parse_eq_tooManyDigits_iff {t : String} {width : Nat} :
    parse t = .error (.tooManyDigits (some width)) ↔
      ∃ source, ComesToWord t.toList source ∧ OverlongPosition source width := by
  rw [parse_eq_error_iff_comesTo]
  constructor
  · rintro ⟨site, fault, rest, hsite, hfailed, herror⟩
    obtain rfl : fault = .longPosition width := by
      cases fault <;> cases herror
      rfl
    obtain ⟨c, tail, rfl⟩ := hsite.exists_cons
    obtain ⟨source, hsource, hlong, hend⟩ := word_longPosition_iff.1 hfailed
    rw [hsource] at hsite
    exact ⟨source, ⟨rest, hsite, hend⟩, hlong⟩
  · rintro ⟨source, ⟨rest, hsite, hend⟩, hlong⟩
    obtain ⟨c, tail, hsource⟩ := hsite.exists_cons
    have hfailed : word (source ++ rest) = .failed (.longPosition width) rest := by
      rw [hsource]
      exact word_longPosition_iff.2 ⟨source, hsource.symm, hlong, hend⟩
    exact ⟨_, _, _, hsite, hfailed, rfl⟩

/-- **A bare number outside the limits** is the reason of an error about an atom. -/
theorem parse_eq_badAtom_iff {t s : String} :
    parse t = .error (.badAtom (.str s) none none) ↔
      ComesToWord t.toList s.toList ∧ NumberOutside s.toList := by
  rw [parse_eq_error_iff_comesTo]
  constructor
  · rintro ⟨site, fault, rest, hsite, hfailed, herror⟩
    obtain rfl : fault = .badNumber s := by
      cases fault <;> cases herror
      rfl
    obtain ⟨c, tail, rfl⟩ := hsite.exists_cons
    obtain ⟨hsource, houtside, hend⟩ := word_badNumber_iff.1 hfailed
    rw [hsource] at hsite
    exact ⟨⟨rest, hsite, hend⟩, houtside⟩
  · rintro ⟨⟨rest, hsite, hend⟩, houtside⟩
    obtain ⟨c, tail, hsource⟩ := hsite.exists_cons
    have hfailed : word (s.toList ++ rest) = .failed (.badNumber s) rest := by
      rw [hsource]
      exact word_badNumber_iff.2 ⟨hsource.symm, houtside, hend⟩
    exact ⟨_, _, _, hsite, hfailed, rfl⟩

/-- A bare number outside the limits is longer than any text that there is room for. -/
theorem NumberOutside.length_lt {text : List Char} (h : NumberOutside text) :
    maxNumberLength < text.length := by
  by_contra hle
  have hnumeral := isNumeral_of_length_le h.number (by omega)
  rw [h.outside] at hnumeral
  cases hnumeral

theorem ComesToWord.length_le {cs source : List Char} (h : ComesToWord cs source) :
    source.length ≤ cs.length := by
  obtain ⟨rest, hsite, -⟩ := h
  generalize hword : source ++ rest = site at hsite
  cases hsite with
  | @behind front gap tail parts c template blank apart solid =>
    have hlength := congrArg List.length hword
    simp only [List.length_append] at hlength ⊢
    omega

/-- An error has a place in the text, unless a word is refused that breaks no rule. -/
theorem error_cases {t : String} {e : Error} (h : parse t = .error e) :
    (∃ fault column, e = .templateFault fault t (some column) ∧ column < t.length) ∨
      (∃ width, e = .tooManyDigits (some width)) ∨ ∃ s, e = .badAtom (.str s) none none := by
  obtain ⟨site, fault, rest, hsite, hfailed, rfl⟩ := parse_eq_error_iff_comesTo.1 h
  have hread := readParts_failed_iff.2 ⟨site, hsite, hfailed⟩
  obtain ⟨c, tail, rfl⟩ := hsite.exists_cons
  have hrefusal := word_refusal hfailed
  generalize c :: tail = text at hrefusal
  cases hrefusal with
  | broken _ _ f place =>
    refine Or.inl ⟨f, t.toList.length - place.length, ?_, ?_⟩
    · rw [Fault.toError, String.ofList_toList]
    · obtain ⟨hsuffix, hne⟩ := readParts_site hread
      have hle := hsuffix.length_le
      have hpos := List.length_pos_iff.2 hne
      rw [← String.length_toList]
      omega
  | @position ds _ verbatim list digits long hend => exact Or.inr (Or.inl ⟨ds.length, rfl⟩)
  | @number digits _ number outside hend => exact Or.inr (Or.inr ⟨String.ofList digits, rfl⟩)

/-- **Texts that are no templates are refused with a fault at a column of the text, but for two
words that break no rule.** A placeholder whose position has too many digits and a bare number
outside the limits are refused with an error of another kind that has no place, and exactly these
are. No text up to the limit of lengths has such a number. -/
theorem parse_refused_at_column_or_overlong (t : String) :
    (∀ e, parse t = .error e →
      (∃ fault column, e = .templateFault fault t (some column) ∧ column < t.length) ∨
      (∃ width, e = .tooManyDigits (some width)) ∨ ∃ s, e = .badAtom (.str s) none none) ∧
    (∀ width, parse t = .error (.tooManyDigits (some width)) ↔
      ∃ source, ComesToWord t.toList source ∧ OverlongPosition source width) ∧
    (∀ s, parse t = .error (.badAtom (.str s) none none) ↔
      ComesToWord t.toList s.toList ∧ NumberOutside s.toList) ∧
    (t.length ≤ maxNumberLength → ∀ s, parse t ≠ .error (.badAtom (.str s) none none)) := by
  refine ⟨fun e => error_cases, fun width => parse_eq_tooManyDigits_iff,
    fun s => parse_eq_badAtom_iff, ?_⟩
  intro hshort s h
  obtain ⟨hword, houtside⟩ := parse_eq_badAtom_iff.1 h
  have hlong := houtside.length_lt
  have hle := hword.length_le
  have hlength : t.toList.length = t.length := String.length_toList
  omega

/-- A template of nothing but a placeholder for a position with too many digits. -/
theorem parse_overlong {ds : List Char} (digits : IsDigits ds) (long : maxDigits < ds.length) :
    parse (String.ofList ('{' :: (ds ++ ['}']))) = .error (.tooManyDigits (some ds.length)) := by
  have hword : ComesToWord ('{' :: (ds ++ ['}'])) ('{' :: (ds ++ ['}'])) := by
    -- nothing stands in front of the placeholder or behind it
    refine ⟨[], ?_, rfl⟩
    rw [List.append_nil]
    exact @ComesTo.behind [] [] _ _ '{' parse_ofList_nil (by simp) (Or.inl rfl) rfl
  apply parse_eq_tooManyDigits_iff.2
  rw [String.toList_ofList]
  exact ⟨_, hword, .intro false false digits long⟩

/-- A placeholder whose position has one digit too many. -/
def overlongTemplate : String := String.ofList ('{' :: (List.replicate 4301 '1' ++ ['}']))

theorem overlongTemplate_refused_without_column :
    parse overlongTemplate = .error (.tooManyDigits (some 4301)) ∧
      (Error.tooManyDigits (some 4301)).families = [.value] ∧
      ¬ ((∃ parts, parse overlongTemplate = .ok parts) ∨
        ∃ fault column, parse overlongTemplate =
          .error (.templateFault fault overlongTemplate (some column))) := by
  have hlength : (List.replicate 4301 '1').length = 4301 := List.length_replicate
  have digits : IsDigits (List.replicate 4301 '1') := by
    refine ⟨?_, ?_⟩
    · apply List.ne_nil_of_length_pos
      omega
    · intro d hd
      rw [List.eq_of_mem_replicate hd]
      rfl
  have long : maxDigits < (List.replicate 4301 '1').length := by
    unfold maxDigits
    omega
  have hparse : parse overlongTemplate = .error (.tooManyDigits (some 4301)) := by
    have herror := parse_overlong digits long
    rw [hlength] at herror
    exact herror
  refine ⟨hparse, rfl, ?_⟩
  rintro (⟨parts, h⟩ | ⟨fault, column, h⟩)
  · cases hparse.symm.trans h
  · cases hparse.symm.trans h

end ShellTemplate.Template
