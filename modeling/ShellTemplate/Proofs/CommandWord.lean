import ShellTemplate.Proofs.Expanding
import ShellTemplate.Proofs.ShellReading
import ShellTemplate.Shell.Command

/-!
# What a value becomes in command position

A shell looks for assignments and reserved words in the first word of a line as it is written. So a
value that comes first should be written as neither.

* `Rules.IsFirstWord.unique` — a line has at most one first word.
* `isAssignment_quoteWord` — no value is written as an assignment.
* `isReserved_quoteWord` — a value is written as a reserved word exactly if it is one, has safe
  characters only, and the style leaves safe words bare.
* `expand_opensWith_isCommandName_iff` — so the first word of a line, where it comes from a value,
  is that value, and it names a command but for the thirteen reserved words that are written in
  letters.
-/

set_option autoImplicit false

namespace ShellTemplate

open Shell

namespace Shell

/-! ## The first word of a line -/

namespace Rules

variable {rules : Rules} {line : List Char} {v w : Word}

/-- A text that is one word, and a longer start of the same line that is one word: the separator
behind the shorter one ends its word, so there is no other. -/
theorem word_eq_of_isPrefix {front rest long : List Char} (hfront : rules.words? front = some [v])
    (hsep : ∀ c ∈ rest.head?, isSeparator c = true) (hlong : rules.words? long = some [w])
    (hpre : front <+: long) (hline : long <+: front ++ rest) : v = w := by
  obtain ⟨middle, rfl⟩ := hpre
  cases middle with
  | nil =>
    rw [List.append_nil, hfront] at hlong
    exact (List.cons.inj (Option.some.inj hlong)).1
  | cons c middle =>
    have hc : isSeparator c = true := by
      rw [List.prefix_append_right_inj] at hline
      obtain ⟨after, rfl⟩ := hline
      exact hsep c rfl
    rw [words?_append_separator rules hc hfront] at hlong
    obtain ⟨ws, -, hws⟩ := Option.map_eq_some_iff.1 hlong
    exact (List.cons.inj hws).1

/-- **A line has at most one first word.** -/
theorem IsFirstWord.unique (hv : rules.IsFirstWord line v) (hw : rules.IsFirstWord line w) :
    v = w := by
  obtain ⟨frontV, restV, rfl, hfrontV, hsepV⟩ := hv
  obtain ⟨frontW, restW, hline, hfrontW, hsepW⟩ := hw
  have hstartV : frontV <+: frontV ++ restV := List.prefix_append _ _
  have hstartW : frontW <+: frontV ++ restV := hline ▸ List.prefix_append _ _
  rcases List.prefix_or_prefix_of_prefix hstartV hstartW with hpre | hpre
  · exact word_eq_of_isPrefix hfrontV hsepV hfrontW hpre hstartW
  · exact (word_eq_of_isPrefix hfrontW hsepW hfrontV hpre (hline ▸ hstartV)).symm

/-- Separators before the first word do not matter. -/
theorem IsFirstWord.cons_separator {s : Char} (hs : isSeparator s = true)
    (h : rules.IsFirstWord line w) : rules.IsFirstWord (s :: line) w := by
  obtain ⟨front, rest, rfl, hfront, hrest⟩ := h
  have hread : rules.words? (s :: front) = some [w] := by
    have hcut : rules.words? ([] ++ s :: front) = (rules.words? front).map ([] ++ ·) :=
      words?_append_separator rules hs rfl front
    rw [List.nil_append, hfront] at hcut
    exact hcut
  exact ⟨s :: front, rest, rfl, hread, hrest⟩

/-- What is read as one word is the first word of every line that goes on with a separator. -/
theorem isFirstWord_append {front rest : List Char} (hfront : rules.words? front = some [w])
    (hrest : ∀ c ∈ rest.head?, isSeparator c = true) : rules.IsFirstWord (front ++ rest) w :=
  ⟨front, rest, rfl, hfront, hrest⟩

end Rules

/-! ## Assignments and reserved words -/

theorem not_isNameStart_apostrophe : Text.isNameStart '\'' = false := by decide

theorem not_isSafe_equals : isSafe '=' = false := by decide

/-- **No text is written as an assignment**: between apostrophes it does not start with a name, and
bare it has no equals sign. -/
theorem isAssignment_quoteWord (style : Style) (cs : List Char) :
    isAssignment (quoteWord style cs) = false := by
  unfold quoteWord
  split
  · next bare =>
    cases cs with
    | nil => rfl
    | cons c rest =>
      have hhead : (rest.dropWhile Text.isNameChar).head? ≠ some '=' := by
        intro hh
        have hmem : '=' ∈ rest :=
          (List.dropWhile_sublist _).subset (List.mem_of_mem_head? hh)
        exact notMem_of_isSafeWord bare.2 not_isSafe_equals (List.mem_cons_of_mem c hmem)
      simp [isAssignment, hhead]
  · simp [quote, isAssignment, not_isNameStart_apostrophe]

theorem not_isReserved_quote (cs : List Char) : isReserved (quote cs) = false := by
  have table : ∀ word ∈ reservedWords, word.toList.head? ≠ some '\'' := by decide
  unfold isReserved
  rw [List.contains_eq_mem, decide_eq_false_iff_not]
  intro hmem
  refine table _ hmem ?_
  rw [String.toList_ofList]
  rfl

/-- **A text is written as a reserved word** exactly if it is one that may stand bare. -/
theorem isReserved_quoteWord (style : Style) (cs : List Char) :
    isReserved (quoteWord style cs) = true ↔
      style = .minimal ∧ isSafeWord cs = true ∧ isReserved cs = true := by
  unfold quoteWord
  split
  · next bare => simp [bare.1, bare.2]
  · next quoted =>
    rw [not_isReserved_quote]
    constructor
    · intro h; cases h
    · rintro ⟨hstyle, hsafe, -⟩
      exact absurd ⟨hstyle, hsafe⟩ quoted

end Shell

/-! ## Lines that open with a value -/

/-- A text is the first one that some parts stand for, it comes from a quoted placeholder, and only
quoted parts that stand for nothing come before it. -/
inductive OpensWith (resolve : Resolver) (t : String) : List Part → Prop where
  | value {place : Placeholder} {texts : List String} {after : List Part}
    (quoted : place.verbatim = false) (denotes : Denotes resolve (.placeholder place) (t :: texts)) :
    OpensWith resolve t (.placeholder place :: after)
  | empty {part : Part} {after : List Part} (quoted : part.isVerbatim = false)
    (denotes : Denotes resolve part []) (opens : OpensWith resolve t after) :
    OpensWith resolve t (part :: after)

theorem exists_rest_spaced (t : String) (texts : List String) :
    ∃ rest, (spaced (t :: texts)).toList = t.toList ++ rest ∧
      ∀ c ∈ rest.head?, isSeparator c = true := by
  rw [toList_spaced]
  cases texts with
  | nil => exact ⟨[], by simp, by simp⟩
  | cons u texts =>
    refine ⟨' ' :: List.intercalate [' '] ((u :: texts).map String.toList), ?_, ?_⟩
    · rw [List.map_cons, List.map_cons, List.intercalate_cons_cons]
      simp
    · exact forall_head_cons rfl _

/-- The first word of a line that opens with a value is that value as it is quoted. -/
theorem OpensWith.isFirstWord {rules : Rules} (takes : rules.TakesSafe) (style : Style)
    {resolve : Resolver} {parts : List Part} {t : String} (h : OpensWith resolve t parts)
    {textss : List (List String)} (hts : List.Forall₂ (Denotes resolve) parts textss) :
    rules.IsFirstWord (spaced (List.zipWith (tokenOf style) parts textss)).toList
      ⟨quoteWord style t.toList, t.toList⟩ := by
  induction h generalizing textss with
  | @value place texts after quoted denotes =>
    obtain ⟨texts', textss, ht, -, rfl⟩ := List.forall₂_cons_left_iff.1 hts
    obtain rfl := ht.unique denotes
    have htoken : tokenOf style (.placeholder place) (t :: texts) =
        spaced (quoteText style t :: texts.map (quoteText style)) := by
      have hverbatim : (Part.placeholder place).isVerbatim = false := quoted
      rw [tokenOf, inserted, hverbatim, if_neg (by decide), List.map_cons]
    -- The word ends with its token or with the first gap inside the token.
    obtain ⟨inner, hinner, hsepInner⟩ :=
      exists_rest_spaced (quoteText style t) (texts.map (quoteText style))
    obtain ⟨outer, houter, hsepOuter⟩ :=
      exists_rest_spaced (tokenOf style (.placeholder place) (t :: texts))
        (List.zipWith (tokenOf style) after textss)
    rw [List.zipWith_cons_cons, houter, htoken, hinner, List.append_assoc]
    rw [quoteText, String.toList_ofList]
    refine Rules.isFirstWord_append (Rules.words?_quoteWord takes style t.toList) ?_
    cases inner with
    | nil => exact hsepOuter
    | cons c inner => exact hsepInner
  | @empty part after quoted denotes opens ih =>
    obtain ⟨texts, textss, ht, hrest, rfl⟩ := List.forall₂_cons_left_iff.1 hts
    obtain rfl := ht.unique denotes
    have htoken : tokenOf style part [] = "" := by
      rw [tokenOf, inserted, quoted, if_neg (by decide)]
      rfl
    have hgap : (spaced (List.zipWith (tokenOf style) (part :: after) ([] :: textss))).toList =
        ' ' :: (spaced (List.zipWith (tokenOf style) after textss)).toList := by
      cases opens <;> cases hrest <;>
        simp [htoken, toList_spaced, List.intercalate_cons_cons]
    rw [hgap]
    exact (ih hrest).cons_separator rfl

variable {style : Style} {context : Context} {parts : List Part} {line t : String}

/-- **A value in command position.** The first word of a line that opens with a value is read as
the value and is no assignment. It names a command unless the style leaves it bare and it is a
reserved word in letters. -/
theorem expand_opensWith_isCommandName_iff (h : expand style context parts = .ok line)
    (opens : OpensWith context.resolver t parts) :
    ∃ w, Rules.lenient.IsFirstWord line.toList w ∧ w.text = t.toList ∧
      isAssignment w.written = false ∧
      (w.isCommandName = true ↔
        ¬(style = .minimal ∧ isSafeWord t.toList = true ∧ isReserved t.toList = true)) := by
  obtain ⟨textss, hts, rfl⟩ := expand_eq_ok_iff.1 h
  have hassign := isAssignment_quoteWord style t.toList
  refine ⟨_, opens.isFirstWord Rules.lenient_takesSafe style hts, rfl, hassign, ?_⟩
  rw [← isReserved_quoteWord, Word.isCommandName, hassign]
  simp

/-- A command line given as a list, behind a list of variables that is empty. -/
def commandParts : List Part :=
  [.placeholder ⟨false, true, .name "env"⟩, .placeholder ⟨false, true, .name "argv"⟩,
    .placeholder ⟨true, false, .name "raw"⟩]

/-- Values that look like an assignment and like the start of a quotation. -/
def commandContext : Context :=
  .mapping (.dict [(.str "env", .list []), (.str "argv", .list [.str "X=1", .str "env"]),
    (.str "raw", .str "'")])

theorem assignment_shaped_command_is_command_name :
    expand .minimal commandContext commandParts = .ok " 'X=1' env '" ∧
      OpensWith commandContext.resolver "X=1" commandParts ∧
      ∃ w, Rules.lenient.IsFirstWord " 'X=1' env '".toList w ∧ w.text = "X=1".toList ∧
        isAssignment w.written = false ∧
        (w.isCommandName = true ↔ ¬(Style.minimal = .minimal ∧
          isSafeWord "X=1".toList = true ∧ isReserved "X=1".toList = true)) := by
  have h : expand .minimal commandContext commandParts = .ok " 'X=1' env '" := rfl
  have opens : OpensWith commandContext.resolver "X=1" commandParts :=
    .empty rfl ((@partTexts_eq_ok _ 0 _ _).1 rfl) (.value rfl ((@partTexts_eq_ok _ 0 _ _).1 rfl))
  exact ⟨h, opens, expand_opensWith_isCommandName_iff h opens⟩

/-- One dynamic word. -/
def wordParts : List Part := [.placeholder ⟨false, false, .name "word"⟩]

/-- **A value that is a reserved word in letters names no command** in the minimal style: it is left
bare, and the shell starts a conditional. -/
theorem bare_if_is_no_command_name :
    ∃ context, expand .minimal context wordParts = .ok "if" ∧
      OpensWith context.resolver "if" wordParts ∧
      ∀ w, Rules.lenient.IsFirstWord "if".toList w → w.isCommandName = false := by
  refine ⟨.mapping (.dict [(.str "word", .str "if")]), rfl,
    .value rfl ((@partTexts_eq_ok _ 0 _ _).1 rfl), ?_⟩
  intro w hw
  have hbare : Rules.lenient.IsFirstWord "if".toList ⟨"if".toList, "if".toList⟩ :=
    ⟨"if".toList, [], rfl, rfl, by simp⟩
  rw [hw.unique hbare]
  decide

end ShellTemplate
