import ShellTemplate.Proofs.TemplateGrammar

/-!
# Templates one behind the other

The reader of templates looks ahead, but never behind the end of a word, and it gives the place of a
fault by what is left to read. So a template goes on with another one behind any blanks: the parts
of the second follow those of the first, and a fault of the second is the same fault so many
characters further to the right.

* `word_append` — a word that was read is read again, whatever follows behind a word end.
* `readParts_append` — a run of the reader goes on behind a template that it has read.
* `word_marked`, `readParts_site` — the site of a fault is an end of the text, which starts with a
  brace or a quote of the word.
* `parse_append_blanks` — templates compose, faults and their columns included.
-/

set_option autoImplicit false

namespace ShellTemplate.Template

open Text Number

/-! ## What follows a word -/

/-- What a word is read as does not hang on what follows behind its end. -/
theorem WordOf.word_eq_done {source rest rest' : List Char} {part : Part} (h : WordOf source part)
    (hend : atWordEnd rest = true) (hend' : atWordEnd rest' = true)
    (hread : word (source ++ rest) = .done part rest) :
    word (source ++ rest') = .done part rest' := by
  cases h with
  | @placeholder name ref verbatim list named =>
    rw [word_placeholder named verbatim list hend] at hread
    rw [word_placeholder named verbatim list hend']
    cases hok : refOfText name with
    | ok ref' => rw [hok] at hread; cases hread; rfl
    | error fault => rw [hok] at hread; cases hread
  | apostrophes free => exact word_apostrophes free hend'
  | doubleQuotes inside => exact word_doubleQuotes inside hend'
  | @number _ text bare number =>
    have hne : source ≠ [] := bare.eq_of_no_brace number.no_brace ▸ number.ne_nil
    rw [word_bare bare hne hend] at hread
    rw [word_bare bare hne hend']
    cases hok : atomOfWord text with
    | ok atom => rw [hok] at hread; cases hread; rfl
    | error fault => rw [hok] at hread; cases hread
  | @identifier _ text bare some other =>
    rw [word_bare bare some hend', atomOfWord_identifier other]

theorem atWordEnd_append {rest tail : List Char} (h : atWordEnd rest = true)
    (htail : atWordEnd tail = true) : atWordEnd (rest ++ tail) = true := by
  cases rest with
  | nil => exact htail
  | cons c rest => exact h

/-- **A word that was read is read again** in front of anything that starts with a word end. -/
theorem word_append {c : Char} {cs rest tail : List Char} {part : Part} (solid : isBlank c = false)
    (h : word (c :: cs) = .done part rest) (htail : atWordEnd tail = true) :
    word (c :: cs ++ tail) = .done part (rest ++ tail) := by
  obtain ⟨source, hsource, hword, hend⟩ := word_sound solid h
  rw [hsource] at h
  rw [hsource, List.append_assoc]
  exact hword.word_eq_done hend (atWordEnd_append hend htail) h

/-! ## Runs of the reader -/

theorem readParts_failed {read : List Part} {cs rest rest' : List Char} {c : Char} {fault : Fault}
    (h : skipBlanks cs = c :: rest) (hw : word (c :: rest) = .failed fault rest') :
    readParts read cs = .failed fault rest' := by
  rw [readParts.eq_def]
  split
  · rename_i hnil; rw [h] at hnil; cases hnil
  · rename_i d tail hcons
    rw [h] at hcons
    cases hcons
    split
    · rename_i hfail; rw [hw] at hfail; cases hfail; rfl
    · rename_i hdone; rw [hw] at hdone; cases hdone

/-- The reader starts at the first character that is not blank. -/
theorem readParts_eq_of_skipBlanks {cs ds : List Char} (h : skipBlanks cs = skipBlanks ds)
    (read : List Part) : readParts read cs = readParts read ds := by
  cases hskip : skipBlanks ds with
  | nil => rw [readParts_end (h.trans hskip), readParts_end hskip]
  | cons c rest =>
    cases hword : word (c :: rest) with
    | done part rest' =>
      rw [readParts_word (h.trans hskip) hword, readParts_word hskip hword]
    | failed fault rest' =>
      rw [readParts_failed (h.trans hskip) hword, readParts_failed hskip hword]

theorem skipBlanks_append {gap : List Char} (blank : ∀ c ∈ gap, isBlank c = true)
    (cs : List Char) : skipBlanks (gap ++ cs) = skipBlanks cs :=
  List.dropWhile_append_of_pos blank

theorem readParts_blanks {gap : List Char} (blank : ∀ c ∈ gap, isBlank c = true)
    (read : List Part) (cs : List Char) : readParts read (gap ++ cs) = readParts read cs :=
  readParts_eq_of_skipBlanks (skipBlanks_append blank cs) read

/-- Parts that were read before are put in front. -/
theorem readParts_before (read before : List Part) (cs : List Char) :
    readParts (read ++ before) cs = (readParts read cs).map (before.reverse ++ ·) := by
  fun_induction readParts read cs with
  | case1 read cs hskip =>
    rw [readParts_end hskip]
    simp [Reading.map]
  | case2 read cs c rest hskip fault rest' hword => exact readParts_failed hskip hword
  | case3 read cs c rest hskip part rest' hword ih =>
    rw [readParts_word hskip hword]
    exact ih

/-- **A run of the reader goes on** behind a template that it has read. -/
theorem readParts_append {read parts : List Part} {cs rest tail : List Char}
    (h : readParts read cs = .done parts rest) (htail : atWordEnd tail = true) :
    readParts read (cs ++ tail) = readParts parts.reverse tail := by
  fun_induction readParts read cs with
  | case1 read cs hskip =>
    cases h
    obtain ⟨gap, blank, hgap⟩ := exists_gap cs
    rw [hskip, List.append_nil] at hgap
    rw [hgap, readParts_blanks blank, List.reverse_reverse]
  | case2 => cases h
  | case3 read cs c front hskip part rest' hword ih =>
    have hstart : skipBlanks (cs ++ tail) = c :: (front ++ tail) := by
      obtain ⟨gap, blank, hgap⟩ := exists_gap cs
      rw [hskip] at hgap
      rw [hgap, List.append_assoc]
      exact skipBlanks_gap blank (forall_head_cons (not_isBlank_of_skipBlanks hskip) _)
    have hnext := word_append (not_isBlank_of_skipBlanks hskip) hword htail
    rw [readParts_word hstart hnext]
    exact ih h

/-! ## The sites of faults -/

section Sites

variable {cs rest site : List Char} {f : SyntaxFault}

/-- The site of a fault in a text: an end of the text that is not empty. -/
structure IsSite (site cs : List Char) : Prop where
  isSuffix : site <:+ cs
  ne_nil : site ≠ []

theorem IsSite.mono {ds : List Char} (h : IsSite site ds) (hds : ds <:+ cs) : IsSite site cs :=
  ⟨h.isSuffix.trans hds, h.ne_nil⟩

/-- The characters that can break a rule: the braces and the quotes. -/
def IsMark (c : Char) : Prop := c = '{' ∨ c = '}' ∨ c = '\'' ∨ c = '"'

/-- The site of a fault in a word: it starts with a brace or a quote, and nothing in front of it is
blank. -/
inductive MarkedIn : List Char → List Char → Prop where
  | behind {front rest : List Char} {c : Char} (solid : ∀ d ∈ front, isBlank d = false)
    (mark : IsMark c) : MarkedIn (front ++ c :: rest) (c :: rest)

theorem markedIn_self {c : Char} (h : IsMark c) (cs : List Char) : MarkedIn (c :: cs) (c :: cs) :=
  @MarkedIn.behind [] cs c (by simp) h

theorem MarkedIn.cons {c : Char} (h : MarkedIn cs site) (solid : isBlank c = false) :
    MarkedIn (c :: cs) site := by
  cases h with
  | @behind front rest d hfront mark =>
    rw [← List.cons_append]
    exact .behind (List.forall_mem_cons.2 ⟨solid, hfront⟩) mark

theorem MarkedIn.isSite (h : MarkedIn cs site) : IsSite site cs := by
  cases h with
  | behind => exact ⟨List.suffix_append _ _, List.cons_ne_nil _ _⟩

theorem isMark_of_brace {c : Char} (h : c = '{' ∨ c = '}') : IsMark c := by
  rcases h with h | h
  · exact Or.inl h
  · exact Or.inr (Or.inl h)

/-- A bare word breaks a rule at a brace that is not doubled or at a quote. -/
theorem bareFrom_marked {read : List Char} (h : bareFrom read cs = .failed (.broken f site) rest) :
    MarkedIn cs site := by
  fun_induction bareFrom read cs with
  | case1 => cases h
  | case2 => cases h
  | case3 read c hblank hbrace =>
    cases h
    exact markedIn_self (isMark_of_brace hbrace) []
  | case4 read c tail hblank hbrace ih =>
    have solid : isBlank c = false := Bool.not_eq_true _ ▸ hblank
    exact ((ih h).cons solid).cons solid
  | case5 read c hblank hbrace d tail hd =>
    cases h
    exact markedIn_self (isMark_of_brace hbrace) _
  | case6 read c tail hblank hbrace hquote =>
    cases h
    exact markedIn_self (Or.inr (Or.inr hquote)) tail
  | case7 read c tail hblank hbrace hquote ih =>
    exact (ih h).cons (Bool.not_eq_true _ ▸ hblank)

theorem quotedWord_site {quote : Char}
    (h : quotedWord (quote :: cs) = .failed (.broken f site) rest) : site = quote :: cs := by
  simp only [quotedWord, quoted] at h
  cases hclose : closeQuote quote [] cs with
  | none =>
    simp only [hclose] at h
    cases h
    rfl
  | some closed =>
    simp only [hclose] at h
    split at h
    · cases h
    · cases h; rfl

theorem placeholderWord_site {opened : List Char}
    (h : placeholderWord opened cs = .failed (.broken f site) rest) : site = opened := by
  unfold placeholderWord at h
  split at h
  · cases h; rfl
  · split at h
    · -- only a position with too many digits is refused here, and that breaks no rule
      unfold refOfText at h
      split_ifs at h
      cases h
    · cases h; rfl

theorem bareWord_marked (h : bareWord cs = .failed (.broken f site) rest) : MarkedIn cs site := by
  simp only [bareWord, bare] at h
  cases hread : bareFrom [] cs with
  | failed fault tail =>
    simp only [hread] at h
    cases h
    exact bareFrom_marked hread
  | done text tail =>
    simp only [hread] at h
    by_cases hnum : LooksLikeNumber text
    · rw [atomOfWord_number hnum] at h
      split_ifs at h
      cases h
    · rw [atomOfWord_identifier hnum] at h
      cases h

/-- **A fault in a word is at a brace or a quote**, with no blank between it and the start. -/
theorem word_marked (h : word cs = .failed (.broken f site) rest) : MarkedIn cs site := by
  cases cs with
  | nil => cases h
  | cons c cs =>
    rw [word_cons] at h
    split at h
    · rename_i hopen
      rw [placeholderWord_site h]
      exact markedIn_self (Or.inl hopen.1) cs
    · split at h
      · rename_i hquote
        rw [quotedWord_site h]
        exact markedIn_self (Or.inr (Or.inr hquote)) cs
      · exact bareWord_marked h

/-- **A fault in a template has a site in the template.** -/
theorem readParts_site {read : List Part}
    (h : readParts read cs = .failed (.broken f site) rest) : IsSite site cs := by
  have hskip : ∀ ds : List Char, skipBlanks ds <:+ ds := fun ds => List.dropWhile_suffix isBlank
  fun_induction readParts read cs with
  | case1 => cases h
  | case2 read cs c tail hcs fault' rest' hword =>
    cases h
    exact (word_marked hword).isSite.mono (hcs ▸ hskip cs)
  | case3 read cs c tail hcs part rest' hword ih =>
    obtain ⟨source, hsource, -, -⟩ := word_sound (not_isBlank_of_skipBlanks hcs) hword
    have hrest : rest' <:+ c :: tail := ⟨source, hsource.symm⟩
    exact (ih h).mono (hrest.trans (hcs ▸ hskip cs))

end Sites

/-! ## Templates behind templates -/

section Append

variable {a b w : String} {ps : List Part}

/-- What is read of a text is read behind a template and some blanks, with the parts of the template
in front. -/
theorem readParts_behind (hne : w ≠ "") (blank : ∀ c ∈ w.toList, isBlank c = true)
    (ha : parse a = .ok ps) (b : String) :
    readParts [] (a ++ w ++ b).toList = (readParts [] b.toList).map (ps ++ ·) := by
  obtain ⟨rest, hread⟩ := parse_eq_ok_iff.1 ha
  have hgap : atWordEnd (w.toList ++ b.toList) = true := by
    obtain ⟨c, gap, hw⟩ := List.exists_cons_of_ne_nil (mt String.toList_eq_nil_iff.1 hne)
    rw [hw] at blank ⊢
    exact blank c List.mem_cons_self
  have hbefore := readParts_before [] ps.reverse b.toList
  rw [List.nil_append, List.reverse_reverse] at hbefore
  rw [String.toList_append, String.toList_append, List.append_assoc, readParts_append hread hgap,
    readParts_blanks blank]
  exact hbefore

theorem parse_append_ok (hne : w ≠ "") (blank : ∀ c ∈ w.toList, isBlank c = true)
    (ha : parse a = .ok ps) {qs : List Part} (hb : parse b = .ok qs) :
    parse (a ++ w ++ b) = .ok (ps ++ qs) := by
  obtain ⟨rest, hread⟩ := parse_eq_ok_iff.1 hb
  apply parse_eq_ok_iff.2
  refine ⟨rest, ?_⟩
  rw [readParts_behind hne blank ha b, hread, Reading.map]

theorem parse_append_fault (hne : w ≠ "") (blank : ∀ c ∈ w.toList, isBlank c = true)
    (ha : parse a = .ok ps) {fault : SyntaxFault} {template : String} {column : Option Nat}
    (hb : parse b = .error (.templateFault fault template column)) :
    ∃ c, column = some c ∧ parse (a ++ w ++ b) =
      .error (.templateFault fault (a ++ w ++ b) (some (a.length + w.length + c))) := by
  obtain ⟨fault', rest, hread, herror⟩ := parse_eq_error_iff.1 hb
  cases fault' with
  | broken f site =>
    cases herror
    have hsite : site.length ≤ b.toList.length := (readParts_site hread).isSuffix.length_le
    have hlength : (a ++ w ++ b).toList.length - site.length =
        a.length + w.length + (b.toList.length - site.length) := by
      simp only [String.toList_append, List.length_append, String.length_toList] at hsite ⊢
      omega
    refine ⟨b.toList.length - site.length, rfl, ?_⟩
    apply parse_eq_error_iff.2
    refine ⟨.broken fault site, rest, ?_, ?_⟩
    · rw [readParts_behind hne blank ha b, hread, Reading.map]
    · rw [Fault.toError, hlength, String.ofList_toList]
  | atEnd => cases herror
  | longPosition width => cases herror
  | badNumber text => cases herror

/-- The wording of a fault in a template tells the column, and nothing else in it hangs on the
template or the column. -/
theorem message_templateFault (fault : SyntaxFault) (template : String) (column : Nat) :
    (Error.templateFault fault template (some column)).message =
      fault.message ++ " at column " ++ integerText column := by
  rw [String.append_assoc]
  rfl

/-- **Templates compose by blanks.** Behind a template and some blanks, a template gives its own
parts; a text with a fault is refused with that fault in the whole text, at the column moved by what
stands before. So a word between blanks means the same wherever it stands. -/
theorem parse_append_blanks (hne : w ≠ "") (blank : ∀ c ∈ w.toList, isBlank c = true)
    (ha : parse a = .ok ps) :
    (∀ qs, parse b = .ok qs → parse (a ++ w ++ b) = .ok (ps ++ qs)) ∧
    (∀ fault template column, parse b = .error (.templateFault fault template column) →
      ∃ c, column = some c ∧ parse (a ++ w ++ b) =
          .error (.templateFault fault (a ++ w ++ b) (some (a.length + w.length + c))) ∧
        ∀ template' column', (Error.templateFault fault template' (some column')).message =
          fault.message ++ " at column " ++ integerText column') ∧
    (∀ qs v c rs, parse b = .ok qs → v ≠ "" → (∀ d ∈ v.toList, isBlank d = true) →
      parse c = .ok rs → parse (a ++ w ++ b ++ v ++ c) = .ok (ps ++ qs ++ rs)) := by
  refine ⟨fun qs hb => parse_append_ok hne blank ha hb, ?_, ?_⟩
  · intro fault template column hb
    obtain ⟨c, hcolumn, herror⟩ := parse_append_fault hne blank ha hb
    exact ⟨c, hcolumn, herror, message_templateFault fault⟩
  · intro qs v c rs hb hv hblank hc
    exact parse_append_ok hv hblank (parse_append_ok hne blank ha hb) hc

/-- A template that ends with a quotation. -/
def quotedTail : String := "\x7b!x\x7d '-r'"

/-- Blanks of three kinds. -/
def mixedBlanks : String := " \t\u3000"

/-- A placeholder, and a quotation that is left open behind an escape sign. -/
def openTail : String := "\x7b0\x7d \"a\\"

theorem parse_quotedTail_append_openTail :
    mixedBlanks ≠ "" ∧ (∀ c ∈ mixedBlanks.toList, isBlank c = true) ∧
      parse quotedTail =
        .ok [.placeholder ⟨true, false, .name "x"⟩, .literal (.text "-r")] ∧
      parse openTail = .error (.templateFault .unterminatedQuote openTail (some 4)) ∧
      parse (quotedTail ++ mixedBlanks ++ openTail) = .error
        (.templateFault .unterminatedQuote (quotedTail ++ mixedBlanks ++ openTail) (some 16)) := by
  have hne : mixedBlanks ≠ "" := by decide
  have blank : ∀ c ∈ mixedBlanks.toList, isBlank c = true := List.all_eq_true.1 (by decide)
  have ha : parse quotedTail =
      .ok [.placeholder ⟨true, false, .name "x"⟩, .literal (.text "-r")] := by
    have hchars : quotedTail.toList = ['{', '!', 'x', '}', ' ', '\'', '-', 'r', '\''] := rfl
    have hfirst : word ['{', '!', 'x', '}', ' ', '\'', '-', 'r', '\''] =
        .done (.placeholder ⟨true, false, .name "x"⟩) [' ', '\'', '-', 'r', '\''] := rfl
    have hsecond : word ['\'', '-', 'r', '\''] = .done (.literal (.text "-r")) [] := rfl
    rw [parse, hchars, readParts_word rfl hfirst, readParts_word rfl hsecond, readParts_end rfl]
    rfl
  have hb : parse openTail = .error (.templateFault .unterminatedQuote openTail (some 4)) := by
    have hchars : openTail.toList = ['{', '0', '}', ' ', '"', 'a', '\\'] := rfl
    have hfirst : word ['{', '0', '}', ' ', '"', 'a', '\\'] =
        .done (.placeholder ⟨false, false, .position 0⟩) [' ', '"', 'a', '\\'] := rfl
    have hsecond : word ['"', 'a', '\\'] =
        .failed (.broken .unterminatedQuote ['"', 'a', '\\']) [] := rfl
    rw [parse, hchars, readParts_word rfl hfirst, readParts_failed rfl hsecond]
    rfl
  obtain ⟨c, hc, herror, -⟩ := (parse_append_blanks hne blank ha).2.1 _ _ _ hb
  cases hc
  exact ⟨hne, blank, ha, hb, herror⟩

end Append

end ShellTemplate.Template
