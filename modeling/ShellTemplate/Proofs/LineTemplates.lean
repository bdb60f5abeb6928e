import ShellTemplate.Proofs.Composition
import ShellTemplate.Proofs.LineWords
import ShellTemplate.Proofs.RefusedTemplates

/-!
# Expanded lines read as templates

A line of quoted parts is itself a text that the reader of templates takes: a bare safe word is an
identifier or a number, and a text between apostrophes is a text, as long as it has no apostrophe in
it. An apostrophe is written as the end of the quotation, an escaped apostrophe and a new quotation;
the reader of templates knows no escapes there, so it refuses the word.

* `word_quoteWord`, `word_quote_apostrophe` — what a quoted text is read as, and when it is refused.
* `ReadsBack.spaced` — texts that are read one by one are read one after the other.
* `tidy` — a line with its runs of separating spaces collapsed; `tidy_lineOfTokens` — that of an
  expansion is the line of its words.
* `parse_expanded_line` — which lines are read back as their texts, and what they are expanded to.
-/

set_option autoImplicit false

namespace ShellTemplate

open Number Shell Template

/-! ## Quoted texts as words of templates -/

section Words

variable {cs rest : List Char}

theorem isPlain_of_isSafe {c : Char} : isSafe c = true → isPlain c = true :=
  Rules.forall_isSafe (P := fun c => isPlain c = true) (by decide +kernel)

theorem flatMap_quoteChar_eq_self (free : '\'' ∉ cs) : cs.flatMap quoteChar = cs := by
  induction cs with
  | nil => rfl
  | cons c cs ih =>
    rw [List.mem_cons, not_or] at free
    rw [List.flatMap_cons, quoteChar, if_neg (Ne.symm free.1), ih free.2]
    rfl

/-- The atom that a quoted text is read as. -/
def atomWritten (style : Style) (t : String) : Atom :=
  if style = .minimal ∧ isSafeWord t.toList then
    if isNumber t.toList then .number t else .identifier t
  else .text t

theorem content_atomWritten (style : Style) (t : String) : (atomWritten style t).content = t := by
  unfold atomWritten
  split_ifs <;> rfl

/-- **A quoted text without apostrophes is read as an atom of it.** -/
theorem word_quoteWord {style : Style} {t : String} (free : '\'' ∉ t.toList)
    (room : style = .minimal → ¬ NumberOutside t.toList) (hend : atWordEnd rest = true) :
    word (quoteWord style t.toList ++ rest) = .done (.literal (atomWritten style t)) rest := by
  unfold quoteWord atomWritten
  split_ifs with hbare hnumber
  · have number := isNumber_iff.1 hnumber
    have inside : isNumeral (String.ofList t.toList) = true := by
      by_contra houtside
      exact room hbare.1 ⟨number, Bool.not_eq_true _ ▸ houtside⟩
    have hword := word_bare (bareOf_number number) number.ne_nil hend
    rwa [atomOfWord_number number, if_pos inside, String.ofList_toList] at hword
  · obtain ⟨hne, hall⟩ := isSafeWord_iff.1 hbare.2
    have hword := word_bare (bareOf_self fun c hc => isPlain_of_isSafe (hall c hc)) hne hend
    rwa [atomOfWord_identifier (mt isNumber_iff.2 hnumber), String.ofList_toList] at hword
  · have hword := word_apostrophes free hend
    rw [String.ofList_toList] at hword
    rwa [quote, flatMap_quoteChar_eq_self free]

/-- **A quoted text with an apostrophe is refused**, whatever follows. -/
theorem word_quote_apostrophe (h : '\'' ∈ cs) (tail : List Char) :
    ∃ rest, word (quote cs ++ tail) = .failed (.broken .quoteNotAlone (quote cs ++ tail)) rest := by
  obtain ⟨before, after, rfl, free⟩ := List.eq_append_cons_of_mem h
  -- the quotation is closed at the first apostrophe, in front of the escape sign
  obtain ⟨rest, hrest⟩ : ∃ rest, quote (before ++ '\'' :: after) ++ tail =
      '\'' :: (before ++ '\'' :: '\\' :: rest) := by
    refine ⟨'\'' :: '\'' :: (after.flatMap quoteChar ++ '\'' :: tail), ?_⟩
    simp [quote, quoteChar, flatMap_quoteChar_eq_self free]
  have hclose := closeQuote_apostrophe_complete free [] ('\\' :: rest)
  refine ⟨'\\' :: rest, ?_⟩
  rw [hrest, word_cons, if_neg (by simp), if_pos (Or.inl rfl), quotedWord, quoted, hclose]
  rfl

end Words

/-! ## Lines of quoted texts as templates -/

/-- A text that is written for some unquoted texts is read as a template with a literal for each of
them, if they have no apostrophes, and is refused otherwise, whatever follows. -/
structure ReadsBack (style : Style) (written : String) (texts : List String) : Prop where
  read : (∀ t ∈ texts, '\'' ∉ t.toList) →
    parse written = .ok (texts.map fun t => .literal (atomWritten style t))
  refused : (∃ t ∈ texts, '\'' ∈ t.toList) → ∀ tail, ∃ column,
    parse (written ++ tail) = .error (.templateFault .quoteNotAlone (written ++ tail) (some column))

section Lines

variable {style : Style}

/-- A quoted text does not start with a blank. -/
theorem exists_quoteWord_eq_cons (style : Style) (cs : List Char) :
    ∃ c rest, quoteWord style cs = c :: rest ∧ Text.isBlank c = false := by
  unfold quoteWord
  split_ifs with hbare
  · obtain ⟨hne, hall⟩ := isSafeWord_iff.1 hbare.2
    obtain ⟨c, rest, rfl⟩ := List.exists_cons_of_ne_nil hne
    have hplain := isPlain_of_isSafe (hall c List.mem_cons_self)
    exact ⟨c, rest, rfl, (isPlain_iff.1 hplain).1⟩
  · exact ⟨'\'', _, rfl, rfl⟩

theorem skipBlanks_quoteWord (style : Style) (cs rest : List Char) :
    skipBlanks (quoteWord style cs ++ rest) = quoteWord style cs ++ rest := by
  obtain ⟨c, tail, hcons, solid⟩ := exists_quoteWord_eq_cons style cs
  rw [hcons]
  exact @skipBlanks_gap [] _ (by simp) (forall_head_cons solid _)

theorem readsBack_quoteText {t : String} (room : style = .minimal → ¬ NumberOutside t.toList) :
    ReadsBack style (quoteText style t) [t] where
  read := by
    intro hfree
    have hend : atWordEnd [] = true := rfl
    have hword := word_quoteWord (hfree t (List.mem_singleton_self t)) room hend
    have hskip := skipBlanks_quoteWord style t.toList []
    rw [List.append_nil] at hword hskip
    obtain ⟨c, rest, hcons, -⟩ := exists_quoteWord_eq_cons style t.toList
    rw [hcons] at hword hskip
    rw [quoteText, parse_ofList_eq_ok_iff, hcons, readParts_word hskip hword]
    exact ⟨[], readParts_end rfl⟩
  refused := by
    rintro ⟨u, hu, hmark⟩ tail
    obtain rfl := List.mem_singleton.1 hu
    have hquote : quoteWord style u.toList = quote u.toList := by
      apply if_neg
      rintro ⟨-, safe⟩
      exact notMem_of_isSafeWord safe rfl hmark
    obtain ⟨rest, hword⟩ := word_quote_apostrophe hmark tail.toList
    have hskip := skipBlanks_quoteWord style u.toList tail.toList
    have htext : (quoteText style u ++ tail).toList = quote u.toList ++ tail.toList := by
      rw [String.toList_append, quoteText, String.toList_ofList, hquote]
    rw [hquote] at hskip
    have hread : readParts [] (quoteText style u ++ tail).toList = .failed
        (.broken .quoteNotAlone (quote u.toList ++ tail.toList)) rest := by
      rw [htext]
      exact readParts_failed hskip hword
    have herror := parse_eq_error_iff.2 ⟨_, _, hread, rfl⟩
    rw [Fault.toError, String.ofList_toList] at herror
    exact ⟨_, herror⟩

theorem readsBack_nil : ReadsBack style "" [] where
  read _ := parse_ofList_nil
  refused := by
    rintro ⟨t, ht, -⟩
    cases ht

theorem isBlank_of_mem_space : ∀ c ∈ " ".toList, Text.isBlank c = true := by
  intro c hc
  obtain rfl : c = ' ' := List.mem_singleton.1 hc
  rfl

/-- Behind a text that is read back and a space, another one is read back. -/
theorem ReadsBack.append {s s' : String} {texts texts' : List String}
    (h : ReadsBack style s texts) (h' : ReadsBack style s' texts') :
    ReadsBack style (s ++ " " ++ s') (texts ++ texts') where
  read := by
    intro hfree
    rw [List.forall_mem_append] at hfree
    rw [List.map_append]
    exact parse_append_ok (by decide) isBlank_of_mem_space (h.read hfree.1) (h'.read hfree.2)
  refused := by
    rintro ⟨t, ht, hmark⟩ tail
    by_cases hfirst : ∃ t ∈ texts, '\'' ∈ t.toList
    · have herror := h.refused hfirst (" " ++ s' ++ tail)
      simpa only [String.append_assoc] using herror
    · have hfree : ∀ t ∈ texts, '\'' ∉ t.toList := fun u hu hmem => hfirst ⟨u, hu, hmem⟩
      have hsecond : t ∈ texts' :=
        (List.mem_append.1 ht).resolve_left fun hmem => hfree t hmem hmark
      obtain ⟨column, herror⟩ := h'.refused ⟨t, hsecond, hmark⟩ tail
      obtain ⟨c, -, hwhole⟩ :=
        parse_append_fault (by decide) isBlank_of_mem_space (h.read hfree) herror
      rw [← String.append_assoc] at hwhole
      exact ⟨_, hwhole⟩

/-- **Texts that are read back one by one are read back one after the other.** -/
theorem ReadsBack.spaced {written : List String} {textss : List (List String)}
    (h : List.Forall₂ (ReadsBack style) written textss) :
    ReadsBack style (spaced written) textss.flatten := by
  induction h with
  | nil => exact readsBack_nil
  | @cons s texts written textss hfirst hrest ih =>
    cases hrest with
    | nil => simpa [spaced_singleton] using hfirst
    | cons hnext hmore =>
      rw [spaced_cons (List.cons_ne_nil _ _), List.flatten_cons]
      exact hfirst.append ih

/-- The line of some texts is read back, and so is a token of a quoted part. -/
theorem readsBack_quoted {texts : List String}
    (room : style = .minimal → ∀ t ∈ texts, ¬ NumberOutside t.toList) :
    ReadsBack style (spaced (texts.map (quoteText style))) texts := by
  have each : List.Forall₂ (ReadsBack style) (texts.map (quoteText style))
      (texts.map fun t => [t]) := by
    rw [List.forall₂_map_left_iff, List.forall₂_map_right_iff, List.forall₂_same]
    exact fun t ht => readsBack_quoteText fun hstyle => room hstyle t ht
  have hline := ReadsBack.spaced each
  rwa [← List.flatMap_def, List.flatMap_singleton'] at hline

end Lines

/-! ## Separating spaces -/

/-- Where in a line of quoted texts a reader is: in front of the first word, behind a word and a
space, in a bare word or behind a quotation, or in a quotation. -/
inductive Spot where
  | start
  | gap
  | word
  | quotation
deriving DecidableEq, Repr, Inhabited

namespace Spot

/-- Where a reader is behind a character. -/
def next (c : Char) : Spot → Spot
  | quotation => if c = '\'' then word else quotation
  | start => if c = ' ' then start else if c = '\'' then quotation else word
  | gap | word => if c = ' ' then gap else if c = '\'' then quotation else word

/-- What is kept of a character: the spaces between two words are kept as one, when the second word
starts, and those in front of all words or behind them are not kept. -/
def kept (c : Char) : Spot → List Char
  | quotation => [c]
  | gap => if c = ' ' then [] else [' ', c]
  | start | word => if c = ' ' then [] else [c]

/-- Where a reader is behind some characters. -/
def after (spot : Spot) (cs : List Char) : Spot := cs.foldl (fun spot c => spot.next c) spot

end Spot

/-- What is kept of the characters from a place in a line on. -/
def tidyFrom : Spot → List Char → List Char
  | _, [] => []
  | spot, c :: cs => spot.kept c ++ tidyFrom (spot.next c) cs

/-- A line with each run of spaces outside of quotations made one space, and with none at its
ends. -/
def tidy (line : String) : String := String.ofList (tidyFrom .start line.toList)

/-- From one place in a line to another, some characters leave some characters. -/
structure Tidies (spot : Spot) (cs ds : List Char) (spot' : Spot) : Prop where
  kept : tidyFrom spot cs = ds
  after : spot.after cs = spot'

section Spaces

variable {spot spot' spot'' : Spot} {cs ds cs' ds' w : List Char} {ws : List (List Char)}

theorem tidies_nil (spot : Spot) : Tidies spot [] [] spot := ⟨rfl, rfl⟩

/-- What is kept of two texts, one behind the other. -/
theorem Tidies.append (h : Tidies spot cs ds spot') (h' : Tidies spot' cs' ds' spot'') :
    Tidies spot (cs ++ cs') (ds ++ ds') spot'' := by
  induction cs generalizing spot ds with
  | nil =>
    obtain ⟨rfl, rfl⟩ := h
    exact h'
  | cons c cs ih =>
    obtain ⟨rfl, hafter⟩ := h
    obtain ⟨hkept, hafter'⟩ := ih ⟨rfl, hafter⟩
    refine ⟨?_, hafter'⟩
    rw [List.cons_append, tidyFrom, hkept, tidyFrom, List.append_assoc]

theorem Tidies.kept_append (h : Tidies spot cs ds spot') (rest : List Char) :
    tidyFrom spot (cs ++ rest) = ds ++ tidyFrom spot' rest :=
  (h.append ⟨rfl, rfl⟩).kept

theorem tidies_quotation (free : '\'' ∉ cs) : Tidies .quotation cs cs .quotation := by
  induction cs with
  | nil => exact tidies_nil _
  | cons c cs ih =>
    rw [List.mem_cons, not_or] at free
    have hfirst : Tidies .quotation [c] [c] .quotation := ⟨rfl, if_neg (Ne.symm free.1)⟩
    exact hfirst.append (ih free.2)

theorem tidies_safe (safe : ∀ c ∈ cs, isSafe c = true) : Tidies .word cs cs .word := by
  induction cs with
  | nil => exact tidies_nil _
  | cons c cs ih =>
    rw [List.forall_mem_cons] at safe
    have hspace : c ≠ ' ' := by
      rintro rfl
      exact absurd safe.1 (by decide)
    have hfirst : Tidies .word [c] [c] .word := by
      refine ⟨?_, ?_⟩
      · simp [tidyFrom, Spot.kept, hspace]
      · simp [Spot.after, Spot.next, hspace, (isSafe_ordinary safe.1).2.1]
    exact hfirst.append (ih safe.2)

/-- A word of a line: it does not start with a space, and nothing in it is lost. -/
inductive IsKept : List Char → Prop where
  | intro {c : Char} {rest : List Char} (solid : c ≠ ' ')
    (more : Tidies (Spot.word.next c) rest rest .word) : IsKept (c :: rest)

theorem isKept_quoteWord (style : Style) (free : '\'' ∉ cs) : IsKept (quoteWord style cs) := by
  unfold quoteWord
  split_ifs with hbare
  · obtain ⟨hne, hall⟩ := isSafeWord_iff.1 hbare.2
    obtain ⟨c, rest, rfl⟩ := List.exists_cons_of_ne_nil hne
    rw [List.forall_mem_cons] at hall
    obtain ⟨hseparator, hquote, -, -⟩ := isSafe_ordinary hall.1
    have solid : c ≠ ' ' := by
      rintro rfl
      cases hseparator
    refine .intro solid ?_
    have hnext : Spot.word.next c = .word := by simp [Spot.next, solid, hquote]
    rw [hnext]
    exact tidies_safe hall.2
  · rw [quote, flatMap_quoteChar_eq_self free]
    have hclose : Tidies .quotation ['\''] ['\''] .word := ⟨rfl, rfl⟩
    exact .intro (by decide) ((tidies_quotation free).append hclose)

theorem IsKept.tidies_start (h : IsKept w) : Tidies .start w w .word := by
  cases h with
  | @intro c rest solid more =>
    have hfirst : Tidies .start [c] [c] (Spot.word.next c) := by
      refine ⟨?_, ?_⟩
      · simp [tidyFrom, Spot.kept, solid]
      · simp [Spot.after, Spot.next, solid]
    exact hfirst.append more

theorem IsKept.tidies_gap (h : IsKept w) : Tidies .gap w (' ' :: w) .word := by
  cases h with
  | @intro c rest solid more =>
    have hfirst : Tidies .gap [c] [' ', c] (Spot.word.next c) := by
      refine ⟨?_, ?_⟩
      · simp [tidyFrom, Spot.kept, solid]
      · simp [Spot.after, Spot.next, solid]
    exact hfirst.append more

/-- Words with a space in front of each. -/
def row (ws : List (List Char)) : List Char := ws.flatMap (' ' :: ·)

theorem row_cons (w : List Char) (ws : List (List Char)) :
    row (w :: ws) = [' '] ++ w ++ row ws := rfl

theorem row_append (ws us : List (List Char)) : row (ws ++ us) = row ws ++ row us :=
  List.flatMap_append

theorem intercalate_cons_eq (w : List Char) (ws : List (List Char)) :
    List.intercalate [' '] (w :: ws) = w ++ row ws := by
  induction ws generalizing w with
  | nil => simp [row, List.intercalate_singleton]
  | cons v ws ih =>
    rw [List.intercalate_cons_cons, ih]
    simp [row]

theorem tidies_row (kept : ∀ w ∈ ws, IsKept w) : Tidies .word (row ws) (row ws) .word := by
  induction ws with
  | nil => exact tidies_nil _
  | cons w ws ih =>
    rw [List.forall_mem_cons] at kept
    have hspace : Tidies .word [' '] [] .gap := ⟨rfl, rfl⟩
    exact (hspace.append kept.1.tidies_gap).append (ih kept.2)

/-- Tokens behind a word or a space are tidied to their words: an empty token leaves nothing. -/
theorem tidyFrom_row {tokens : List (List (List Char))} (behind : spot = .gap ∨ spot = .word)
    (kept : ∀ ws ∈ tokens, ∀ w ∈ ws, IsKept w) :
    tidyFrom spot (row (tokens.map (List.intercalate [' ']))) = row tokens.flatten := by
  induction tokens generalizing spot with
  | nil => rfl
  | cons ws tokens ih =>
    rw [List.forall_mem_cons] at kept
    have hspace : Tidies spot [' '] [] .gap := by
      rcases behind with rfl | rfl
      · exact ⟨rfl, rfl⟩
      · exact ⟨rfl, rfl⟩
    obtain ⟨spot', hspot, htoken⟩ : ∃ spot', (spot' = .gap ∨ spot' = .word) ∧
        Tidies .gap (List.intercalate [' '] ws) (row ws) spot' := by
      cases ws with
      | nil => exact ⟨.gap, Or.inl rfl, tidies_nil _⟩
      | cons w ws =>
        rw [List.forall_mem_cons] at kept
        rw [intercalate_cons_eq]
        exact ⟨.word, Or.inr rfl, kept.1.1.tidies_gap.append (tidies_row kept.1.2)⟩
    rw [List.map_cons, row_cons, (hspace.append htoken).kept_append, ih hspot kept.2,
      List.flatten_cons, row_append, List.nil_append]

/-- Tokens at the start of a line are tidied to their words. -/
theorem tidyFrom_start_row {tokens : List (List (List Char))}
    (kept : ∀ ws ∈ tokens, ∀ w ∈ ws, IsKept w) :
    tidyFrom .start (row (tokens.map (List.intercalate [' ']))) =
      List.intercalate [' '] tokens.flatten := by
  have hspace : Tidies .start [' '] [] .start := ⟨rfl, rfl⟩
  induction tokens with
  | nil => rfl
  | cons ws tokens ih =>
    rw [List.forall_mem_cons] at kept
    rw [List.map_cons, row_cons]
    cases ws with
    | nil =>
      rw [List.intercalate_nil, (hspace.append (tidies_nil _)).kept_append, ih kept.2]
      rfl
    | cons w ws =>
      rw [List.forall_mem_cons] at kept
      have htoken := hspace.append (kept.1.1.tidies_start.append (tidies_row kept.1.2))
      rw [intercalate_cons_eq, htoken.kept_append, tidyFrom_row (Or.inr rfl) kept.2,
        List.flatten_cons, List.cons_append, intercalate_cons_eq, row_append, List.nil_append,
        List.append_assoc]

/-- Tokens in a line are tidied to the line of their words. -/
theorem tidyFrom_intercalate {tokens : List (List (List Char))}
    (kept : ∀ ws ∈ tokens, ∀ w ∈ ws, IsKept w) :
    tidyFrom .start (List.intercalate [' '] (tokens.map (List.intercalate [' ']))) =
      List.intercalate [' '] tokens.flatten := by
  cases tokens with
  | nil => rfl
  | cons ws tokens =>
    -- a space in front of all tokens would not be kept
    rw [← tidyFrom_start_row kept, List.map_cons, intercalate_cons_eq]
    rfl

end Spaces

section Quoted

variable {style : Style}

/-- The line of some lists of texts, with a token for each list. -/
def lineOfTokens (style : Style) (textss : List (List String)) : String :=
  spaced (textss.map fun texts => spaced (texts.map (quoteText style)))

/-- **A line of quoted texts without apostrophes is tidied to the line of its words.** -/
theorem tidy_lineOfTokens (style : Style) {textss : List (List String)}
    (free : ∀ t ∈ textss.flatten, '\'' ∉ t.toList) :
    tidy (lineOfTokens style textss) = spaced (textss.flatten.map (quoteText style)) := by
  have kept : ∀ ws ∈ textss.map (List.map fun t => quoteWord style t.toList), ∀ w ∈ ws,
      IsKept w := by
    intro ws hws w hw
    obtain ⟨texts, htexts, rfl⟩ := List.mem_map.1 hws
    obtain ⟨t, ht, rfl⟩ := List.mem_map.1 hw
    exact isKept_quoteWord style (free t (List.mem_flatten_of_mem htexts ht))
  have htokens : (lineOfTokens style textss).toList = List.intercalate [' ']
      ((textss.map (List.map fun t => quoteWord style t.toList)).map (List.intercalate [' '])) := by
    simp [lineOfTokens, toList_spaced, quoteText, Function.comp_def]
  rw [tidy, htokens, tidyFrom_intercalate kept, ← String.toList_inj, String.toList_ofList,
    toList_spaced, List.map_map, ← List.map_flatten]
  simp [quoteText, Function.comp_def]

/-- Tokens that are not empty make the line of their words. -/
theorem spaced_map_spaced {wss : List (List String)} (nonempty : ∀ ws ∈ wss, ws ≠ []) :
    spaced (wss.map spaced) = spaced wss.flatten := by
  induction wss with
  | nil => rfl
  | cons ws wss ih =>
    rw [List.forall_mem_cons] at nonempty
    cases wss with
    | nil => simp [spaced_singleton]
    | cons us wss =>
      have hne : (us :: wss).flatten ≠ [] := by
        obtain ⟨u, us', rfl⟩ := List.exists_cons_of_ne_nil (nonempty.2 us List.mem_cons_self)
        simp
      rw [List.map_cons, spaced_cons (by simp), ih nonempty.2]
      exact (spaced_append nonempty.1 hne).symm

theorem lineOfTokens_eq {textss : List (List String)} (nonempty : ∀ ts ∈ textss, ts ≠ []) :
    lineOfTokens style textss = spaced (textss.flatten.map (quoteText style)) := by
  have hwords : ∀ ws ∈ textss.map (List.map (quoteText style)), ws ≠ [] := by
    intro ws hws
    obtain ⟨ts, hts, rfl⟩ := List.mem_map.1 hws
    exact mt List.map_eq_nil_iff.1 (nonempty ts hts)
  rw [List.map_flatten, ← spaced_map_spaced hwords, List.map_map]
  rfl

/-- The line of quoted parts has a token for the texts of each part. -/
theorem line_eq_lineOfTokens {resolve : Resolver} {parts : List Part} {textss : List (List String)}
    (hq : ∀ p ∈ parts, p.isVerbatim = false) (h : List.Forall₂ (Denotes resolve) parts textss) :
    spaced (List.zipWith (tokenOf style) parts textss) = lineOfTokens style textss := by
  unfold lineOfTokens
  congr 1
  induction h with
  | nil => rfl
  | @cons part texts parts textss _ _ ih =>
    rw [List.forall_mem_cons] at hq
    rw [List.zipWith_cons_cons, List.map_cons, ih hq.2, tokenOf, inserted, hq.1]
    rfl

/-- The literals of some texts are expanded to the texts, quoted, with a space between them. -/
theorem expand_atomsWritten (style : Style) (context : Context) (texts : List String) :
    expand style context (texts.map fun t => .literal (atomWritten style t)) =
      .ok (spaced (texts.map (quoteText style))) := by
  rw [expand_eq_ok_iff]
  refine ⟨texts.map fun t => [t], ?_, ?_⟩
  · rw [List.forall₂_map_left_iff, List.forall₂_map_right_iff, List.forall₂_same]
    intro t _
    have hdenotes := @Denotes.literal context.resolver (atomWritten style t)
    rwa [content_atomWritten] at hdenotes
  · have htoken : ∀ t, tokenOf style (.literal (atomWritten style t)) [t] = quoteText style t :=
      fun t => spaced_singleton _
    rw [List.zipWith_map, List.zipWith_self]
    simp only [htoken]

end Quoted

/-! ## Expanded lines -/

/-- **An expanded line is read back as a template exactly if no text in it has an apostrophe.** A
line of quoted parts whose texts have no apostrophes is read as one literal for each text, with the
text for its content, and these are expanded to the line again, tidied; the line is tidy if no list
was empty. A line with an apostrophe in some text is refused for it. In the minimal style a bare
number outside the limits of numbers is refused too, but there is no room for such a number. -/
theorem parse_expanded_line {style : Style} {context : Context} {parts : List Part} {line : String}
    (hq : ∀ p ∈ parts, p.isVerbatim = false) (h : expand style context parts = .ok line) :
    ∃ textss, List.Forall₂ (Denotes context.resolver) parts textss ∧
      (∀ t : String, NumberOutside t.toList → maxNumberLength < t.length) ∧
      ((style = .minimal → ∀ t ∈ textss.flatten, ¬ NumberOutside t.toList) →
        ((∀ t ∈ textss.flatten, '\'' ∉ t.toList) → ∃ atoms : List Atom,
          parse line = .ok (atoms.map .literal) ∧ atoms.map Atom.content = textss.flatten ∧
            (∀ context', expand style context' (atoms.map .literal) = .ok (tidy line)) ∧
            ((∀ texts ∈ textss, texts ≠ []) → tidy line = line)) ∧
        ((∃ t ∈ textss.flatten, '\'' ∈ t.toList) → ∃ column,
          parse line = .error (.templateFault .quoteNotAlone line (some column)))) := by
  obtain ⟨textss, hdenotes, rfl⟩ := expand_eq_ok_iff.1 h
  rw [line_eq_lineOfTokens hq hdenotes]
  refine ⟨textss, hdenotes, fun t houtside => String.length_toList ▸ houtside.length_lt, ?_⟩
  intro room
  have htokens : List.Forall₂ (ReadsBack style)
      (textss.map fun texts => spaced (texts.map (quoteText style))) textss := by
    rw [List.forall₂_map_left_iff, List.forall₂_same]
    intro texts htexts
    apply readsBack_quoted
    intro hstyle t ht
    exact room hstyle t (List.mem_flatten_of_mem htexts ht)
  have hline : ReadsBack style (lineOfTokens style textss) textss.flatten := .spaced htokens
  constructor
  · intro free
    have htidy := tidy_lineOfTokens style free
    refine ⟨textss.flatten.map (atomWritten style), ?_, ?_, ?_, ?_⟩
    · rw [List.map_map]
      exact hline.read free
    · rw [List.map_map]
      simp [Function.comp_def, content_atomWritten]
    · intro context'
      rw [List.map_map, htidy]
      exact expand_atomsWritten style context' textss.flatten
    · intro nonempty
      rw [htidy, lineOfTokens_eq nonempty]
  · intro hmark
    obtain ⟨column, herror⟩ := hline.refused hmark ""
    rw [String.append_empty] at herror
    exact ⟨column, herror⟩

/-- Values with blanks, braces and nothing in them, an empty list and a whole number. -/
def quietContext : Context :=
  .mapping (.dict [(.str "files", .list [.str "a  b", .str "\x7bx\x7d", .str ""]),
    (.str "none", .tuple []), (.str "count", .int (-5))])

/-- Parts of the three quoted kinds, the first of them without a text. -/
def quietParts : List Part :=
  [.placeholder ⟨false, true, .name "none"⟩, .literal (.identifier "cp"),
    .placeholder ⟨false, true, .name "files"⟩, .placeholder ⟨false, true, .name "none"⟩,
    .placeholder ⟨false, false, .name "count"⟩]

/-- Their line. -/
def quietLine : String := " cp 'a  b' '\x7bx\x7d' ''  -5"

/-- The texts of these parts. -/
def quietTexts : List (List String) := [[], ["cp"], ["a  b", "\x7bx\x7d", ""], [], ["-5"]]

theorem quietParts_denote :
    List.Forall₂ (Denotes quietContext.resolver) quietParts quietTexts := by
  have hdenotes : List.Forall₂
      (fun part texts => partTexts quietContext.resolver 0 part = .ok texts)
      quietParts quietTexts :=
    .cons rfl (.cons rfl (.cons rfl (.cons rfl (.cons rfl .nil))))
  exact hdenotes.imp fun _ _ h => partTexts_eq_ok.1 h

theorem quietLine_reads_back :
    (∀ p ∈ quietParts, p.isVerbatim = false) ∧
      expand .minimal quietContext quietParts = .ok quietLine ∧
      ∃ atoms : List Atom, parse quietLine = .ok (atoms.map .literal) ∧
        atoms.map Atom.content = ["cp", "a  b", "\x7bx\x7d", "", "-5"] ∧
        ∀ context', expand .minimal context' (atoms.map .literal) =
          .ok "cp 'a  b' '\x7bx\x7d' '' -5" := by
  have hq : ∀ p ∈ quietParts, p.isVerbatim = false := by decide
  have h : expand .minimal quietContext quietParts = .ok quietLine := rfl
  obtain ⟨textss, hdenotes, hlong, hread⟩ := parse_expanded_line hq h
  have hunique : Relator.RightUnique (Denotes quietContext.resolver) := fun _ _ _ ht hu =>
    ht.unique hu
  obtain rfl := List.right_unique_forall₂' hunique hdenotes quietParts_denote
  have room : ∀ t ∈ quietTexts.flatten, ¬ NumberOutside t.toList := by
    intro t ht houtside
    have hlength : ∀ t ∈ quietTexts.flatten, t.length ≤ maxNumberLength := by decide
    exact absurd (hlong t houtside) (Nat.not_lt.2 (hlength t ht))
  obtain ⟨atoms, hparse, hcontent, hexpand, -⟩ := (hread fun _ => room).1 (by decide)
  exact ⟨hq, h, atoms, hparse, hcontent, hexpand⟩

end ShellTemplate
