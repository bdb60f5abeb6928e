import ShellTemplate.CommandLine.Basic
import ShellTemplate.Proofs.AsciiRuns

/-!
# The arguments of a rendering

An option with a value is written with its letter or its long name, and with the value in the same
argument or in the next one, whatever the value is. Options stand in any order before and behind the
template; a template that starts with a dash stands behind two dashes.

* `Spells`, `SpellsAll` — the ways in which options with values are written.
* `Unambiguous` — the letters and the names tell the options apart; `unambiguous_renderForms`.
* `read?_spellsAll` — options that are so written are read, in order.
* `Asks`, `ofArguments?_of_asks` — arguments that ask for a rendering, and what they ask for.
-/

set_option autoImplicit false

namespace ShellTemplate.CommandLine

variable {forms : List OptionForm} {given : Given} {options : List Given} {front rest : List String}

/-- The ways in which an option is written with its value. -/
inductive Spells (forms : List OptionForm) : Given → List String → Prop where
  | letter {form : OptionForm} {c : Char} (known : form ∈ forms) (takes : form.takesValue = true)
    (letter : form.letter = some c) (value : String) :
    Spells forms ⟨form.name, value⟩ [String.ofList ['-', c], value]
  | letterJoined {form : OptionForm} {c : Char} (known : form ∈ forms)
    (takes : form.takesValue = true) (letter : form.letter = some c) {value : String}
    (nonempty : value ≠ "") :
    Spells forms ⟨form.name, value⟩ [String.ofList ('-' :: c :: value.toList)]
  | long {form : OptionForm} (known : form ∈ forms) (takes : form.takesValue = true)
    (value : String) : Spells forms ⟨form.name, value⟩ ["--" ++ form.long, value]
  | longJoined {form : OptionForm} (known : form ∈ forms) (takes : form.takesValue = true)
    (value : String) : Spells forms ⟨form.name, value⟩ ["--" ++ form.long ++ "=" ++ value]

/-- Options written with their values one after the other. -/
inductive SpellsAll (forms : List OptionForm) : List Given → List String → Prop where
  | nil : SpellsAll forms [] []
  | cons {given : Given} {options : List Given} {front rest : List String}
    (first : Spells forms given front) (others : SpellsAll forms options rest) :
    SpellsAll forms (given :: options) (front ++ rest)

/-- Letters and long names tell the options apart. -/
structure Unambiguous (forms : List OptionForm) : Prop where
  letter : ∀ form ∈ forms, ∀ c, form.letter = some c →
    c ≠ '-' ∧ forms.find? (fun form => form.letter = some c) = some form
  long : ∀ form ∈ forms, form.long ≠ "" ∧ '=' ∉ form.long.toList ∧
    forms.find? (fun other => other.long.toList = form.long.toList) = some form

theorem unambiguous_renderForms : Unambiguous renderForms where
  letter := by
    intro form hform c hc
    simp only [renderForms, helpForm, List.mem_cons, List.not_mem_nil, or_false] at hform
    rcases hform with rfl | rfl | rfl | rfl | rfl
    · cases hc; exact ⟨by decide, rfl⟩
    · cases hc; exact ⟨by decide, rfl⟩
    · cases hc; exact ⟨by decide, rfl⟩
    · cases hc
    · cases hc
  long := by
    intro form hform
    simp only [renderForms, helpForm, List.mem_cons, List.not_mem_nil, or_false] at hform
    rcases hform with rfl | rfl | rfl | rfl | rfl
    · exact ⟨by decide, by decide, rfl⟩
    · exact ⟨by decide, by decide, rfl⟩
    · exact ⟨by decide, by decide, rfl⟩
    · exact ⟨by decide, by decide, rfl⟩
    · exact ⟨by decide, by decide, rfl⟩

/-! ## Single arguments -/

section Steps

variable {between : Bool} {arg : String} {given : List Given}

theorem read?_cons (hne : arg ≠ "--") (h : optionsIn? forms arg.toList = some (some ⟨given, none⟩)) :
    Arguments.read? forms between (arg :: rest) =
      (Arguments.read? forms between rest).map (Arguments.withOptions given) := by
  rw [Arguments.read?, if_neg hne, h]

theorem read?_cons_awaiting {name : OptionName} (hne : arg ≠ "--")
    (h : optionsIn? forms arg.toList = some (some ⟨[], some name⟩)) (value : String) :
    Arguments.read? forms between (arg :: value :: rest) =
      (Arguments.read? forms between rest).map (Arguments.withOptions [⟨name, value⟩]) := by
  rw [Arguments.read?, if_neg hne, h]
  rfl

theorem read?_cons_word (hne : arg ≠ "--") (h : optionsIn? forms arg.toList = none) :
    Arguments.read? forms true (arg :: rest) =
      (Arguments.read? forms true rest).map (Arguments.withWord arg) := by
  rw [Arguments.read?, if_neg hne, h]
  rfl

theorem withOptions_words (options : List Given) (words : List String) :
    Arguments.withOptions options ⟨[], words⟩ = ⟨options, words⟩ := by
  rw [Arguments.withOptions, List.append_nil]

/-- An argument that does not start with a dash is a word. -/
theorem optionsIn?_word {cs : List Char} (h : cs.head? ≠ some '-') : optionsIn? forms cs = none := by
  unfold optionsIn?
  split
  · exact absurd rfl h
  · exact absurd rfl h
  · rfl

end Steps

theorem ne_equals_of_notMem {cs : List Char} (h : '=' ∉ cs) : ∀ c ∈ cs, decide (c ≠ '=') = true := by
  intro c hc
  rw [decide_eq_true_eq]
  rintro rfl
  exact h hc

/-! ## Options with values -/

section Known

variable {form : OptionForm} {c : Char} (apart : Unambiguous forms) (known : form ∈ forms)
  (takes : form.takesValue = true)

include apart known takes

theorem optionsIn?_letter (hletter : form.letter = some c) (value : List Char) :
    optionsIn? forms ('-' :: c :: value) = some (some
      (if value.isEmpty then ⟨[], some form.name⟩
      else ⟨[⟨form.name, String.ofList value⟩], none⟩)) := by
  obtain ⟨hc, hfind⟩ := apart.letter form known c hletter
  have hread : optionsIn? forms ('-' :: c :: value) = some (lettersOf? forms (c :: value)) := by
    unfold optionsIn?
    split
    · rename_i heq; cases heq; exact absurd rfl hc
    · rename_i heq; cases heq; rfl
    · rename_i hnone; exact absurd rfl (hnone c value)
  rw [hread, lettersOf?, hfind]
  simp only [Option.bind_eq_bind, Option.bind_some, takes, if_true]
  split <;> rfl

/-- A long name is read up to the equals sign. -/
theorem longOf?_eq {value : List Char} (stop : ∀ d ∈ value.head?, d = '=') :
    longOf? forms (form.long.toList ++ value) = some
      (if value.isEmpty then ⟨[], some form.name⟩
      else ⟨[⟨form.name, String.ofList value.tail⟩], none⟩) := by
  obtain ⟨-, hequals, hfind⟩ := apart.long form known
  have hname := ne_equals_of_notMem hequals
  have hstop : ∀ d ∈ value.head?, decide (d ≠ '=') = false := by
    intro d hd
    rw [stop d hd]
    decide
  simp only [longOf?, takeWhile_run hname hstop, dropWhile_run hname hstop, hfind,
    Option.bind_eq_bind, Option.bind_some, takes]
  cases value with
  | nil => rfl
  | cons _ value => rfl

end Known

theorem ofList_ne_dashes {c : Char} {cs : List Char} (hc : c ≠ '-') :
    String.ofList ('-' :: c :: cs) ≠ "--" := by
  intro heq
  have hchars := congrArg String.toList heq
  rw [String.toList_ofList] at hchars
  cases hchars
  exact hc rfl

theorem toList_long (name value : String) :
    ("--" ++ name ++ value).toList = '-' :: '-' :: (name.toList ++ value.toList) := by
  rw [String.toList_append, String.toList_append]
  rfl

theorem long_ne_dashes {name : String} (hname : name ≠ "") (value : String) :
    "--" ++ name ++ value ≠ "--" := by
  intro heq
  have hchars := congrArg String.toList heq
  rw [toList_long] at hchars
  have hnil : name.toList ++ value.toList = [] := by simpa using hchars
  exact hname (String.toList_eq_nil_iff.1 (List.append_eq_nil_iff.1 hnil).1)

/-- **An option that is written with its value is read as it.** -/
theorem read?_spells (apart : Unambiguous forms) (h : Spells forms given front) (between : Bool)
    (rest : List String) :
    Arguments.read? forms between (front ++ rest) =
      (Arguments.read? forms between rest).map (Arguments.withOptions [given]) := by
  cases h with
  | @letter form c known takes hletter value =>
    have hc := (apart.letter form known c hletter).1
    refine read?_cons_awaiting (ofList_ne_dashes hc) ?_ value
    rw [String.toList_ofList, optionsIn?_letter apart known takes hletter]
    rfl
  | @letterJoined form c known takes hletter value nonempty =>
    have hc := (apart.letter form known c hletter).1
    refine read?_cons (ofList_ne_dashes hc) ?_
    have hvalue : value.toList.isEmpty = false := by
      rw [List.isEmpty_eq_false_iff]
      exact fun hnil => nonempty (String.toList_eq_nil_iff.1 hnil)
    rw [String.toList_ofList, optionsIn?_letter apart known takes hletter, hvalue,
      String.ofList_toList]
    rfl
  | @long form known takes value =>
    have hlong := long_ne_dashes (apart.long form known).1 ""
    have hchars := toList_long form.long ""
    rw [String.append_empty] at hlong hchars
    refine read?_cons_awaiting hlong ?_ value
    rw [hchars]
    exact congrArg some (@longOf?_eq forms form apart known takes [] (by simp))
  | @longJoined form known takes value =>
    have hlong := long_ne_dashes (apart.long form known).1 ("=" ++ value)
    have hchars := toList_long form.long ("=" ++ value)
    rw [← String.append_assoc] at hlong hchars
    refine read?_cons hlong ?_
    rw [hchars, String.toList_append]
    have hread := @longOf?_eq forms form apart known takes ('=' :: value.toList) (by simp)
    rw [List.tail_cons, String.ofList_toList] at hread
    exact congrArg some hread

/-- **Options that are written with their values are read, in order.** -/
theorem read?_spellsAll (apart : Unambiguous forms) (h : SpellsAll forms options front)
    (between : Bool) (rest : List String) :
    Arguments.read? forms between (front ++ rest) =
      (Arguments.read? forms between rest).map (Arguments.withOptions options) := by
  induction h with
  | nil =>
    rw [List.nil_append]
    cases Arguments.read? forms between rest <;> rfl
  | cons first _ ih =>
    rw [List.append_assoc, read?_spells apart first, ih, Option.map_map]
    congr 1

/-! ## Rendering -/

/-- Arguments that ask for a template to be rendered with some options. -/
inductive Asks (template : String) : List Given → List String → Prop where
  | among {before after : List Given} {front back : List String}
    (front_options : SpellsAll renderForms before front)
    (back_options : SpellsAll renderForms after back) (plain : template.toList.head? ≠ some '-') :
    Asks template (before ++ after) ("render" :: (front ++ template :: back))
  | behindDashes {options : List Given} {front : List String}
    (front_options : SpellsAll renderForms options front) :
    Asks template options ("render" :: (front ++ ["--", template]))

/-- The values of an option among some options, in order. -/
def valuesAmong (name : OptionName) (options : List Given) : List String :=
  (⟨options, []⟩ : Arguments).valuesOf name

/-- The rendering of a template with some options; of files and of styles the last one counts. -/
def renderingOf (template : String) (options : List Given) : Rendering :=
  ⟨template, valuesAmong .set options, valuesAmong .list options,
    (valuesAmong .file options).getLast?, (valuesAmong .style options).getLast?⟩

variable {template : String} {args : List String}

theorem name_ne_help_of_spells (h : Spells renderForms given front) : given.name ≠ .help := by
  have hname : ∀ form ∈ renderForms, form.takesValue = true → form.name ≠ .help := by
    intro form hform
    simp only [renderForms, helpForm, List.mem_cons, List.not_mem_nil, or_false] at hform
    rcases hform with rfl | rfl | rfl | rfl | rfl <;> decide
  cases h with
  | letter known takes _ _ => exact hname _ known takes
  | letterJoined known takes _ _ => exact hname _ known takes
  | long known takes _ => exact hname _ known takes
  | longJoined known takes _ => exact hname _ known takes

theorem has_help_eq_false (h : SpellsAll renderForms options front) (words : List String) :
    (⟨options, words⟩ : Arguments).has .help = false := by
  show options.any _ = false
  induction h with
  | nil => rfl
  | cons first _ ih =>
    rw [List.any_cons, ih, Bool.or_false, decide_eq_false_iff_not]
    exact name_ne_help_of_spells first

theorem SpellsAll.append {after : List Given} {back : List String}
    (h : SpellsAll forms options front) (h' : SpellsAll forms after back) :
    SpellsAll forms (options ++ after) (front ++ back) := by
  induction h with
  | nil => exact h'
  | cons first _ ih =>
    rw [List.append_assoc]
    exact .cons first ih

theorem renderOf?_of_read {words : List String} (h : SpellsAll renderForms options front)
    (hread : Arguments.read? renderForms true words = some ⟨options, [template]⟩) :
    Command.renderOf? words = some (.render (renderingOf template options)) := by
  rw [Command.renderOf?, hread]
  simp only [Option.bind_eq_bind, Option.bind_some, has_help_eq_false h]
  rfl

/-- **Arguments that ask for a rendering are read as it.** -/
theorem ofArguments?_of_asks (h : Asks template options args) :
    Command.ofArguments? args = some (.render (renderingOf template options)) := by
  cases h with
  | @among before after front back front_options back_options plain =>
    refine renderOf?_of_read (front_options.append back_options) ?_
    have hne : template ≠ "--" := by
      rintro rfl
      exact plain rfl
    have hback : Arguments.read? renderForms true back = some ⟨after, []⟩ := by
      have hread := read?_spellsAll unambiguous_renderForms back_options true []
      rw [List.append_nil] at hread
      rw [hread]
      exact congrArg some (withOptions_words after [])
    rw [read?_spellsAll unambiguous_renderForms front_options,
      read?_cons_word hne (optionsIn?_word plain), hback]
    rfl
  | @behindDashes options front front_options =>
    refine renderOf?_of_read front_options ?_
    rw [read?_spellsAll unambiguous_renderForms front_options]
    exact congrArg some (withOptions_words options [template])

end ShellTemplate.CommandLine
