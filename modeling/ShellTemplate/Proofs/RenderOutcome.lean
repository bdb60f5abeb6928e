import ShellTemplate.Proofs.ConfigFiles
import ShellTemplate.Proofs.NamedValues
import ShellTemplate.Proofs.PrintedWords
import ShellTemplate.Proofs.RenderArguments

/-!
# What a rendering comes to

A rendering has one outcome: it fails for an item that is no assignment, or it is the expansion of
one template in one dictionary, where lists override scalars, scalars override the variables of the
configuration, and of several values for one name the last counts. Only a whole line is printed.

* `Assigns`, `IsNoAssignment` — what an item assigns, and the items that assign nothing.
* `assignInto_of_assigns`, `assignInto_of_firstFaulty?` — what some items come to.
* `merged`, `resolver_chain_eq_merged` — the values of a rendering as one dictionary.
* `lineOf_eq` — the line of a rendering is the expansion of one template in that dictionary.
* `Expected`, `Reports` — the errors that are expected, and how a line or an error is reported.
* `outcome_of_asks` — the outcome of a rendering.
-/

set_option autoImplicit false

namespace ShellTemplate.CommandLine

open Dict Shell Terminal

/-! ## Assignments -/

/-- An item is made of a name, which is not empty, an equals sign and a value. -/
structure Assigns (item : String) (pair : String × String) : Prop where
  named : pair.1 ≠ ""
  first : '=' ∉ pair.1.toList
  written : item = pair.1 ++ "=" ++ pair.2

/-- An item without an equals sign, or with no name before the first one. -/
def IsNoAssignment (item : String) : Prop :=
  '=' ∉ item.toList ∨ item.toList.head? = some '='

instance : DecidablePred IsNoAssignment := fun _ => inferInstanceAs (Decidable (_ ∨ _))

variable {item : String} {items : List String} {asList : Bool}

theorem assignment?_of_assigns {pair : String × String} (h : Assigns item pair) :
    assignment? item = some pair := by
  obtain ⟨name, value⟩ := pair
  obtain ⟨named, first, rfl⟩ := h
  have hname := ne_equals_of_notMem first
  have hstop := @forall_head_cons Char (fun c => decide (c ≠ '=')) '=' false (by decide) value.toList
  have hchars : (name ++ "=" ++ value).toList = name.toList ++ '=' :: value.toList := by simp
  have hnonempty : name.toList.isEmpty = false := by
    rw [List.isEmpty_eq_false_iff]
    exact fun hnil => named (String.toList_eq_nil_iff.1 hnil)
  rw [assignment?, hchars]
  simp only [takeWhile_run hname hstop, dropWhile_run hname hstop, hnonempty, String.ofList_toList]
  rfl

theorem assignment?_of_isNoAssignment (h : IsNoAssignment item) : assignment? item = none := by
  rcases h with hnone | hfirst
  · simp only [assignment?, dropWhile_all (ne_equals_of_notMem hnone)]
  · obtain ⟨value, hvalue⟩ := List.head?_eq_some_iff.1 hfirst
    rw [assignment?, hvalue]
    rfl

theorem assigns_or_isNoAssignment (item : String) :
    (∃ pair, Assigns item pair) ∨ IsNoAssignment item := by
  by_cases hmem : '=' ∈ item.toList
  · obtain ⟨name, value, hchars, hfirst⟩ := List.eq_append_cons_of_mem hmem
    rcases name with _ | ⟨c, name⟩
    · exact .inr (.inr (by rw [hchars]; rfl))
    · refine .inl ⟨(String.ofList (c :: name), String.ofList value), ?_, ?_, ?_⟩
      · intro hempty
        simpa using congrArg String.toList hempty
      · rwa [String.toList_ofList]
      · rw [← String.toList_inj, hchars]
        simp
  · exact .inr (.inl hmem)

/-- The named values that some assignments give. -/
def assignedTo (asList : Bool) (pairs : List (String × String)) : List (String × Value) :=
  pairs.map fun pair => (pair.1, assigned asList pair.2)

theorem assignInto_of_assigns {pairs : List (String × String)} (h : List.Forall₂ Assigns items pairs)
    (values : List (String × Value)) :
    assignInto asList values items = .ok (override values (assignedTo asList pairs)) := by
  induction h generalizing values with
  | nil => rfl
  | @cons item pair items pairs first _ ih =>
    rw [assignInto, assignment?_of_assigns first]
    exact ih _

/-- The first item that is no assignment. -/
def firstFaulty? (items : List String) : Option String :=
  items.find? fun item => IsNoAssignment item

theorem exists_firstFaulty? (h : ∃ item ∈ items, IsNoAssignment item) :
    ∃ item ∈ items, IsNoAssignment item ∧ firstFaulty? items = some item := by
  have hsome : (firstFaulty? items).isSome = true := by simpa [firstFaulty?] using h
  obtain ⟨item, hfirst⟩ := Option.isSome_iff_exists.1 hsome
  exact ⟨item, List.mem_of_find?_eq_some hfirst, by simpa using List.find?_some hfirst, hfirst⟩

theorem assignInto_of_firstFaulty? (asList : Bool) (h : firstFaulty? items = some item)
    (values : List (String × Value)) : assignInto asList values items = .error item := by
  induction items generalizing values with
  | nil => cases h
  | cons first items ih =>
    rw [firstFaulty?] at h
    by_cases hfirst : IsNoAssignment first
    · rw [List.find?_cons_of_pos (by simpa using hfirst)] at h
      cases h
      rw [assignInto, assignment?_of_isNoAssignment hfirst]
    · rw [List.find?_cons_of_neg (by simpa using hfirst)] at h
      obtain ⟨pair, hpair⟩ := (assigns_or_isNoAssignment first).resolve_right hfirst
      rw [assignInto, assignment?_of_assigns hpair]
      exact ih h _

theorem exists_assigns (h : ∀ item ∈ items, ¬IsNoAssignment item) :
    ∃ pairs, List.Forall₂ Assigns items pairs :=
  exists_forall₂_iff.2 fun item hitem =>
    (assigns_or_isNoAssignment item).resolve_right (h item hitem)

variable {r : Rendering} {scalars lists : List (String × String)}

theorem assignedValues_of_assigns (hscalars : List.Forall₂ Assigns r.scalars scalars)
    (hlists : List.Forall₂ Assigns r.lists lists) :
    assignedValues r = .ok (override (override [] (assignedTo false scalars))
      (override [] (assignedTo true lists))) := by
  rw [assignedValues, assignments, assignInto_of_assigns hscalars, assignments,
    assignInto_of_assigns hlists]
  rfl

/-- The scalars are looked through before the lists. -/
theorem assignedValues_of_firstFaulty? (h : firstFaulty? (r.scalars ++ r.lists) = some item) :
    assignedValues r = .error item := by
  rw [firstFaulty?, List.find?_append] at h
  cases hscalars : firstFaulty? r.scalars with
  | some first =>
    rw [← firstFaulty?, hscalars] at h
    cases h
    rw [assignedValues, assignments, assignInto_of_firstFaulty? false hscalars]
    rfl
  | none =>
    rw [← firstFaulty?, hscalars, Option.none_or] at h
    obtain ⟨scalars, hassigned⟩ := exists_assigns fun item hitem => by
      simpa using List.find?_eq_none.1 hscalars item hitem
    rw [assignedValues, assignments, assignInto_of_assigns hassigned, assignments,
      assignInto_of_firstFaulty? true h]
    rfl

theorem assignedValues_of_isNoAssignment (h : ∃ item ∈ r.scalars ++ r.lists, IsNoAssignment item) :
    ∃ item ∈ r.scalars ++ r.lists, IsNoAssignment item ∧ assignedValues r = .error item := by
  obtain ⟨item, hmem, hno, hfirst⟩ := exists_firstFaulty? h
  exact ⟨item, hmem, hno, assignedValues_of_firstFaulty? hfirst⟩

/-! ## The values of a rendering -/

/-- The variables of a configuration, overridden by scalars, overridden by lists. -/
def merged (config : Config) (scalars lists : List (String × String)) : List (Value × Value) :=
  union (union (ofNamed config.values) (entries (assignedTo false scalars)))
    (entries (assignedTo true lists))

/-- **The values of a rendering are those of one dictionary.** -/
theorem resolver_chain_eq_merged (config : Config) (scalars lists : List (String × String)) :
    (Context.chain [.mapping (.dict (ofNamed (override (override [] (assignedTo false scalars))
        (override [] (assignedTo true lists))))), config.context]).resolver =
      (Context.mapping (.dict (merged config scalars lists))).resolver := by
  funext ref
  have hnames : ((override (override [] (assignedTo false scalars))
      (override [] (assignedTo true lists))).map Prod.fst).Nodup :=
    nodup_override (nodup_override List.nodup_nil)
  have hlists : override [] (override [] (assignedTo true lists)) =
      override [] (assignedTo true lists) :=
    override_nil_eq_self (nodup_override List.nodup_nil)
  have hgiven : foundIn (override (override [] (assignedTo false scalars))
        (override [] (assignedTo true lists))) ref =
      (foundIn (override [] (assignedTo true lists)) ref).or
        (foundIn (override [] (assignedTo false scalars)) ref) := by
    rw [foundIn_override, hlists]
  have hmerged : foundIn (override (override (override [] config.values)
        (assignedTo false scalars)) (assignedTo true lists)) ref =
      ((foundIn (override [] (assignedTo true lists)) ref).or
        ((foundIn (override [] (assignedTo false scalars)) ref).or
          (foundIn (override [] config.values) ref))) := by
    rw [foundIn_override, foundIn_override (override [] config.values)]
  rw [merged, Config.context, ofNamed_eq, ofNamed_eq, override_nil_eq_self hnames, union_entries,
    union_entries, resolver_chain_entries, resolver_entries, hgiven, hmerged, Option.or_assoc]

/-! ## The line of a rendering -/

/-- The name of the style that is asked for, or that of the configuration. -/
def styleNameFor (config : Config) (style : Option String) : String :=
  (style.filter (· ≠ "")).getD config.style.name

theorem styleFor_eq (config : Config) (style : Option String) :
    styleFor config style = styleOf (styleNameFor config style) := by
  rw [styleFor, styleNameFor]
  cases style.filter (· ≠ "") with
  | some name => rfl
  | none => exact (styleOf_name config.style).symm

/-- **The line of a rendering is the expansion of one template in one dictionary.** -/
theorem lineOf_eq (config : Config) (scalars lists : List (String × String)) (r : Rendering) :
    lineOf config (override (override [] (assignedTo false scalars))
        (override [] (assignedTo true lists))) r =
      (do
        let parts ← Template.parse ((config.template? r.template).getD r.template)
        expandValue (styleNameFor config r.style) (.list (parts.map .part))
          (.dict (merged config scalars lists))) := by
  rw [lineOf]
  refine congrArg _ (funext fun parts => ?_)
  rw [styleFor_eq, expandValue]
  refine congrArg _ (funext fun style => ?_)
  rw [expand, resolver_chain_eq_merged]
  rfl

/-! ## The outcome of a rendering -/

/-- The errors that a command expects: those of templates and configurations, and those of values
that have the right type and are none of it. -/
inductive Expected : Error → Prop
  | badAtom (value : Value) (index : Option Nat) (ref : Option Value) :
      Expected (.badAtom value index ref)
  | unresolved (ref : Value) (index : Option Nat) : Expected (.unresolved ref index)
  | typeMismatch (ref : Value) (expected : String) (value : Value) (index : Option Nat) :
      Expected (.typeMismatch ref expected value index)
  | templateFault (fault : SyntaxFault) (template : String) (column : Option Nat) :
      Expected (.templateFault fault template column)
  | config (path : String) (fault : ConfigFault) : Expected (.config path fault)
  | unknownStyle (name : String) : Expected (.unknownStyle name)
  | tooManyDigits (count : Option Nat) : Expected (.tooManyDigits count)
  | zeroStep : Expected .zeroStep
  | shallowStack : Expected .shallowStack
  | badNumeral (text : String) : Expected (.badNumeral text)
  | notUtf8 (fault : Utf8Fault) : Expected (.notUtf8 fault)
  | digits (base : Nat) (text : String) : Expected (.scalar (.digits base text))
  | float (text : String) : Expected (.scalar (.float text))
  | date (text : String) : Expected (.scalar (.date text))
  | codePoint : Expected (.scalar .codePoint)

theorem isExpected_iff (e : Error) : isExpected e = true ↔ Expected e := by
  constructor
  · intro h
    cases e with
    | scalar fault =>
      cases fault with
      | digits base text => exact .digits base text
      | float text => exact .float text
      | date text => exact .date text
      | codePoint => exact .codePoint
      | _ => simp [isExpected, Error.families] at h
    | badAtom value index ref => exact .badAtom value index ref
    | unresolved ref index => exact .unresolved ref index
    | typeMismatch ref expected value index => exact .typeMismatch ref expected value index
    | templateFault fault template column => exact .templateFault fault template column
    | config path fault => exact .config path fault
    | unknownStyle name => exact .unknownStyle name
    | tooManyDigits count => exact .tooManyDigits count
    | zeroStep => exact .zeroStep
    | shallowStack => exact .shallowStack
    | badNumeral text => exact .badNumeral text
    | notUtf8 fault => exact .notUtf8 fault
    | _ => simp [isExpected, Error.families] at h
  · intro h
    cases h <;> rfl

/-- A message to whoever reads the errors, in red on a terminal. -/
def told (streams : Streams) (message : String) : String :=
  echo streams.errors (if streams.errors then red message else message)

/-- How a command ends that gives a line or fails: the line is printed, or the error is told and
nothing is printed. The message says so where the error is none that is expected. -/
inductive Reports (streams : Streams) : Except Error String → Outcome → Prop
  | line (text : String) : Reports streams (.ok text) ⟨0, echo streams.output text, ""⟩
  | expected {e : Error} : Expected e →
      Reports streams (.error e) ⟨1, "", told streams ("Error: " ++ e.message)⟩
  | unexpected {e : Error} : ¬Expected e →
      Reports streams (.error e) ⟨1, "", told streams ("Error: Unexpected error: " ++ e.message)⟩

theorem message_notAssignment (item : String) :
    (Failure.notAssignment item).message = "Expected name=value, got " ++ Text.quotation item :=
  rfl

theorem message_error (e : Error) : (Failure.error e).message =
    if isExpected e then e.message else "Unexpected error: " ++ e.message :=
  rfl

variable {packages : Packages} {streams : Streams} {files : Files}
variable {template : String} {options : List Given} {args : List String}

/-- A rendering without faulty items is reported. -/
theorem reports_outcome (hargs : Command.ofArguments? args = some (.render r))
    {result : Except Error String} (h : rendered packages files r = result.mapError .error) :
    Reports streams result (outcome packages streams files args) := by
  cases result with
  | ok line =>
    rw [outcome_of_rendered_ok streams hargs h]
    exact .line line
  | error e =>
    have hfails : rendered packages files r = .error (.error e) := h
    rw [outcome_of_rendered_error streams hargs hfails, echoRed_eq]
    by_cases he : Expected e
    · rw [message_error, if_pos ((isExpected_iff e).2 he)]
      exact .expected he
    · have hjoin : "Error: " ++ "Unexpected error: " = "Error: Unexpected error: " := by decide
      rw [message_error, if_neg (mt (isExpected_iff e).1 he), ← String.append_assoc, hjoin]
      exact .unexpected he

/-- A rendering with an item that is no assignment names the item and prints nothing. -/
theorem outcome_of_notAssignment (hargs : Command.ofArguments? args = some (.render r))
    (h : assignedValues r = .error item) :
    outcome packages streams files args =
      ⟨1, "", told streams ("Error: Expected name=value, got " ++ Text.quotation item)⟩ := by
  have hrendered : rendered packages files r = .error (.notAssignment item) := by
    rw [rendered, h]
    rfl
  have hjoin : "Error: " ++ "Expected name=value, got " = "Error: Expected name=value, got " := by
    decide
  rw [outcome_of_rendered_error streams hargs hrendered, echoRed_eq, message_notAssignment,
    ← String.append_assoc, hjoin, told]

/-- **A rendering has one outcome and never prints a part of it.** If an item of the options is no
assignment, nothing is printed and the status says so. Otherwise the outcome is that of expanding
the template of the given name, or else the given template, in the variables of the configuration
overridden by the scalars and these by the lists, in the style that is asked for or that of the
configuration: the line is printed, or the error is told and nothing is printed. -/
theorem outcome_of_asks (packages : Packages) (streams : Streams) (files : Files)
    (h : Asks template options args) :
    ((∃ item ∈ valuesAmong .set options ++ valuesAmong .list options, IsNoAssignment item) →
      ∃ item ∈ valuesAmong .set options ++ valuesAmong .list options, IsNoAssignment item ∧
        outcome packages streams files args =
          ⟨1, "", told streams ("Error: Expected name=value, got " ++ Text.quotation item)⟩) ∧
    ((∀ item ∈ valuesAmong .set options ++ valuesAmong .list options, ¬IsNoAssignment item) →
      ∃ scalars lists, List.Forall₂ Assigns (valuesAmong .set options) scalars ∧
        List.Forall₂ Assigns (valuesAmong .list options) lists ∧
        Reports streams (do
          let config ← configFor packages files (valuesAmong .file options).getLast?
          let parts ← Template.parse ((config.template? template).getD template)
          expandValue (styleNameFor config (valuesAmong .style options).getLast?)
            (.list (parts.map .part)) (.dict (merged config scalars lists)))
          (outcome packages streams files args)) := by
  have hargs := ofArguments?_of_asks h
  constructor
  · intro hsome
    obtain ⟨item, hmem, hno, herror⟩ :=
      @assignedValues_of_isNoAssignment (renderingOf template options) hsome
    exact ⟨item, hmem, hno, outcome_of_notAssignment hargs herror⟩
  · intro hall
    rw [List.forall_mem_append] at hall
    obtain ⟨scalars, hscalars⟩ := exists_assigns hall.1
    obtain ⟨lists, hlists⟩ := exists_assigns hall.2
    refine ⟨scalars, lists, hscalars, hlists, reports_outcome hargs ?_⟩
    have hvalues := @assignedValues_of_assigns (renderingOf template options) _ _ hscalars hlists
    rw [rendered, hvalues]
    refine congrArg (Except.mapError Failure.error) (congrArg _ (funext fun config => ?_))
    exact lineOf_eq config scalars lists (renderingOf template options)

/-- A configuration file. -/
def someConfiguration : String :=
  "style: always\nvars: \x7ba: x, n: 1\x7d\n" ++
    "templates: \x7bt: 'echo \x7ba\x7d \x7bn\x7d \x7b*b\x7d'\x7d\n"

/-- A current directory with that file in it. -/
def configuredFiles : Files :=
  ⟨⟨true, []⟩, fun p =>
    if p = (⟨true, []⟩ : Path).child Config.fileName then
      some (.file (someConfiguration.toList.map fun c => UInt8.ofNat c.toNat))
    else none⟩

/-- Two values for a variable of the configuration, a list, and no style. -/
def overridingOptions : List Given :=
  [⟨.set, "a=x"⟩, ⟨.list, "b=p,q"⟩, ⟨.set, "a=y z"⟩, ⟨.style, ""⟩]

/-- Arguments with these options before and behind the name of a template. -/
def overridingArguments : List String :=
  ["render", "-sa=x", "--list=b=p,q", "t", "--set", "a=y z", "--style", ""]

theorem asks_overriding : Asks "t" overridingOptions overridingArguments := by
  have hset : (⟨.set, "set", some 's', true⟩ : OptionForm) ∈ renderForms := by simp [renderForms]
  have hlist : (⟨.list, "list", some 'l', true⟩ : OptionForm) ∈ renderForms := by simp [renderForms]
  have hstyle : (⟨.style, "style", none, true⟩ : OptionForm) ∈ renderForms := by simp [renderForms]
  have hvalue : "a=x" ≠ "" := by decide
  have hfront := SpellsAll.cons (.letterJoined hset rfl rfl hvalue)
    (.cons (.longJoined hlist rfl "b=p,q") .nil)
  have hback := SpellsAll.cons (.long hset rfl "a=y z") (.cons (.long hstyle rfl "") .nil)
  exact .among hfront hback (by decide)

/-- A current directory with a directory in the place of the configuration. -/
def misplacedFiles : Files := (Entry.directory [(Config.fileName, .directory [])]).files []

theorem outcome_overriding :
    Asks "t" overridingOptions overridingArguments ∧
      (∃ scalars lists, List.Forall₂ Assigns (valuesAmong .set overridingOptions) scalars ∧
        List.Forall₂ Assigns (valuesAmong .list overridingOptions) lists ∧
        Reports ⟨false, false⟩ (do
          let config ← configFor .runnable configuredFiles
            (valuesAmong .file overridingOptions).getLast?
          let parts ← Template.parse ((config.template? "t").getD "t")
          expandValue (styleNameFor config (valuesAmong .style overridingOptions).getLast?)
            (.list (parts.map .part)) (.dict (merged config scalars lists)))
          (outcome .runnable ⟨false, false⟩ configuredFiles overridingArguments)) ∧
      outcome .runnable ⟨false, false⟩ configuredFiles overridingArguments =
        ⟨0, "'echo' 'y z' '1' 'p' 'q'\n", ""⟩ ∧
      Asks "t" [⟨.set, "=x"⟩] ["render", "-s", "=x", "t"] ∧
      outcome .runnable ⟨false, false⟩ configuredFiles ["render", "-s", "=x", "t"] =
        ⟨1, "", "Error: Expected name=value, got '=x'\n"⟩ ∧
      -- an error that is expected, elsewhere and on a terminal, and one that is not
      outcome .runnable ⟨false, false⟩ configuredFiles ["render", "\x7bx\x7d"] =
        ⟨1, "", "Error: Unresolved reference: 'x' (part 0)\n"⟩ ∧
      outcome .runnable ⟨false, true⟩ configuredFiles ["render", "\x7bx\x7d"] =
        ⟨1, "", "\x1b[31mError: Unresolved reference: 'x' (part 0)\x1b[0m\n"⟩ ∧
      outcome .runnable ⟨false, false⟩ misplacedFiles ["render", "ls"] =
        ⟨1, "", "Error: Unexpected error: [Errno 21] Is a directory: '/shq.yaml'\n"⟩ := by
  have hset : (⟨.set, "set", some 's', true⟩ : OptionForm) ∈ renderForms := by simp [renderForms]
  have hasks : Asks "t" [⟨.set, "=x"⟩] ["render", "-s", "=x", "t"] :=
    .among (.cons (.letter hset rfl rfl "=x") .nil) .nil (by decide)
  refine ⟨asks_overriding, ?_, by decide +kernel, hasks, ?_, by decide +kernel, by decide +kernel,
    by decide +kernel⟩
  · exact (outcome_of_asks .runnable ⟨false, false⟩ configuredFiles asks_overriding).2 (by decide)
  · obtain ⟨item, hmem, -, houtcome⟩ :=
      (outcome_of_asks .runnable ⟨false, false⟩ configuredFiles hasks).1
        ⟨"=x", by decide, by decide⟩
    obtain rfl : item = "=x" := by simpa [valuesAmong, Arguments.valuesOf] using hmem
    rw [houtcome]
    decide +kernel

/-- **A configuration with a byte that is no text is told without the prefix**, although the error
is none of templates or configurations; and what is told on a terminal is in red. -/
theorem strayByte_told_without_prefix :
    Asks "ls" [] ["render", "ls"] ∧
      (∃ e, configFor .runnable Config.strayByte none = .error e ∧
        ErrorFamily.template ∉ e.families ∧
        e.message = "'utf-8' codec can't decode byte 0xff in position 0: invalid start byte") ∧
      outcome .runnable ⟨false, false⟩ Config.strayByte ["render", "ls"] = ⟨1, "",
        "Error: 'utf-8' codec can't decode byte 0xff in position 0: invalid start byte\n"⟩ ∧
      outcome .runnable ⟨false, true⟩ Config.strayByte ["render", "ls"] = ⟨1, "",
        "\x1b[31mError: 'utf-8' codec can't decode byte 0xff in position 0: " ++
          "invalid start byte\x1b[0m\n"⟩ := by
  have hasks : Asks "ls" ([] ++ []) ("render" :: ([] ++ "ls" :: [])) := .among .nil .nil (by decide)
  have hfault : configFor .runnable Config.strayByte none =
      .error (.notUtf8 ⟨0, [0xFF], .startByte⟩) := rfl
  exact ⟨hasks, ⟨_, hfault, by decide, by decide +kernel⟩, by decide +kernel, by decide +kernel⟩

end ShellTemplate.CommandLine
