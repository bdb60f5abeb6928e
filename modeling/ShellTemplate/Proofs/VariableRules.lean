import ShellTemplate.Proofs.Expanding
import ShellTemplate.Proofs.NamedValues
import ShellTemplate.Proofs.NumberTexts

/-!
# Variables and what can be expanded

A configuration is checked before anything is expanded, by rules of its own. For the values that a
document can give these rules are those of atoms: a variable is accepted exactly if it can be
expanded, and being loaded changes nothing about it.

* `Value.IsPlain` — what is built from the scalars of a document, lists and dictionaries.
* `Scalar.exists_ofValue?_iff`, `Setting.exists_ofValue?_iff` — the two sets of rules agree.
* `Scalar.value_eq_of_ofValue?`, `Setting.value_eq_of_ofValue?` — an accepted value is kept.
* `exists_ofValue?_variables_iff` — variables are accepted exactly if each of them can be expanded
  from their dictionary; `context_of_ofValue?_variables` — then they are offered as in it.
* `variable_accepted_iff_expands` — the same of one variable, which gives the same line before and
  after it was loaded.
-/

set_option autoImplicit false

namespace ShellTemplate

open Number Shell

/-- The values that are built from nothing, truth values, whole numbers that can be written in
decimal, binary numbers, texts, lists and dictionaries, nested as deep as they come. -/
inductive Value.IsPlain : Value → Prop where
  | null : IsPlain .null
  | bool (b : Bool) : IsPlain (.bool b)
  | int {n : Int} (short : (digits n.natAbs).length ≤ maxDigits) : IsPlain (.int n)
  | float {x : Binary64} (format : x.InFormat) : IsPlain (.float x)
  | str (s : String) : IsPlain (.str s)
  | list {items : List Value} (each : ∀ item ∈ items, item.IsPlain) : IsPlain (.list items)
  | bottomless : IsPlain .bottomless
  | dict {entries : List (Value × Value)} (keys : ∀ entry ∈ entries, entry.1.IsPlain)
    (values : ∀ entry ∈ entries, entry.2.IsPlain) : IsPlain (.dict entries)

/-- The unquoted texts that a value stands for where it is a list, and where it is none. -/
inductive Value.HasTexts : Value → List String → Prop where
  | scalar {v : Value} {t : String} (single : v.listItems? = none) (text : v.HasText t) :
    HasTexts v [t]
  | list {v : Value} {items : List Value} {texts : List String} (many : v.listItems? = some items)
    (each : List.Forall₂ Value.HasText items texts) : HasTexts v texts

/-! ## Scalars -/

variable {v : Value}

/-- A text is a number atom's exactly if it is a numeral. -/
theorem exists_numberOf_iff {s : String} :
    (∃ a, Atom.numberOf (.str s) = .ok a) ↔ isNumeral s = true := by
  rw [Atom.numberOf_str]
  by_cases h : isNumeral s = true <;> simp [h]

theorem exists_ofValue_int {n : Int} (short : (digits n.natAbs).length ≤ maxDigits) :
    ∃ a, Atom.ofValue (.int n) = .ok a := by
  rw [Atom.ofValue, Atom.ofNumber, if_neg (Nat.not_lt.2 short)]
  exact exists_numberOf_iff.2 (isNumeral_integerText short)

theorem hasText_iff {v : Value} : (∃ t, v.HasText t) ↔ ∃ a, Atom.ofValue v = .ok a := by
  constructor
  · rintro ⟨t, a, ha, -⟩
    exact ⟨a, ha⟩
  · rintro ⟨a, ha⟩
    exact ⟨a.content, a, ha, rfl⟩

/-- **The scalars of a configuration are the plain values that are atoms.** -/
theorem Scalar.exists_ofValue?_iff (hv : v.IsPlain) :
    (∃ s, Scalar.ofValue? v = some s) ↔ ∃ t, v.HasText t := by
  rw [hasText_iff]
  cases hv with
  | null => simp [Scalar.ofValue?, Atom.ofValue]
  | bool b => simp [Scalar.ofValue?, Atom.ofValue]
  | @int n short =>
    simpa [Scalar.ofValue?] using exists_ofValue_int short
  | @float x format =>
    rw [Atom.ofValue, Atom.ofNumber, exists_numberOf_iff, isNumeral_toChars format]
    cases hx : x.isFinite with
    | true => simp [Scalar.ofValue?, hx]
    | false => simp [Scalar.ofValue?, hx]
  | str s => simp [Scalar.ofValue?, Atom.ofValue]
  | list _ => simp [Scalar.ofValue?, Atom.ofValue]
  | bottomless => simp [Scalar.ofValue?, Atom.ofValue]
  | dict _ _ => simp [Scalar.ofValue?, Atom.ofValue]

/-- An accepted scalar is the value that was given. -/
theorem Scalar.value_eq_of_ofValue? (hv : v.IsPlain) {s : Scalar}
    (h : Scalar.ofValue? v = some s) : s.value = v := by
  cases hv with
  | null | bool _ | list _ | bottomless | dict _ _ => cases h
  | int _ => cases h; rfl
  | str _ => cases h; rfl
  | float _ =>
    rw [Scalar.ofValue?] at h
    split at h
    · cases h; rfl
    · cases h

/-! ## Variables -/

/-- A value that is no list is a variable as a scalar. -/
theorem Setting.ofValue?_of_single (hv : v.IsPlain) (single : v.listItems? = none) :
    Setting.ofValue? v = (Scalar.ofValue? v).map .scalar := by
  have hitems : settingItems? v = none := by
    cases hv with
    | null | bool _ | int _ | float _ | str _ | dict _ _ => rfl
    | list _ | bottomless => cases single
  unfold Setting.ofValue?
  cases Scalar.ofValue? v with
  | none => simp [hitems]
  | some s => rfl

/-- A plain value that is a list is a variable as one, item by item. -/
theorem Setting.ofValue?_of_many (hv : v.IsPlain) {items : List Value}
    (many : v.listItems? = some items) :
    Setting.ofValue? v = (items.mapM Scalar.ofValue?).map .list ∧ ∀ item ∈ items, item.IsPlain := by
  cases hv with
  | null | bool _ | int _ | float _ | str _ | dict _ _ => cases many
  | list each =>
    cases many
    exact ⟨rfl, each⟩
  | bottomless =>
    cases many
    exact ⟨rfl, List.forall_mem_singleton.2 .bottomless⟩

/-- **The variables of a configuration are the plain values that can be expanded.** -/
theorem Setting.exists_ofValue?_iff (hv : v.IsPlain) :
    (∃ st, Setting.ofValue? v = some st) ↔ ∃ texts, v.HasTexts texts := by
  cases hmany : v.listItems? with
  | none =>
    rw [Setting.ofValue?_of_single hv hmany]
    constructor
    · rintro ⟨st, h⟩
      obtain ⟨s, hs, -⟩ := Option.map_eq_some_iff.1 h
      obtain ⟨t, ht⟩ := (Scalar.exists_ofValue?_iff hv).1 ⟨s, hs⟩
      exact ⟨[t], .scalar hmany ht⟩
    · rintro ⟨texts, h⟩
      cases h with
      | scalar _ text =>
        obtain ⟨s, hs⟩ := (Scalar.exists_ofValue?_iff hv).2 ⟨_, text⟩
        exact ⟨.scalar s, by rw [hs]; rfl⟩
      | list many _ => rw [hmany] at many; cases many
  | some items =>
    obtain ⟨hof, each⟩ := ofValue?_of_many hv hmany
    have hitems : (∃ ss, items.mapM Scalar.ofValue? = some ss) ↔
        ∃ texts, List.Forall₂ Value.HasText items texts := by
      simp only [mapM_eq_some_iff, exists_forall₂_iff]
      exact forall₂_congr fun item hitem => Scalar.exists_ofValue?_iff (each item hitem)
    rw [hof]
    constructor
    · rintro ⟨st, h⟩
      obtain ⟨ss, hss, -⟩ := Option.map_eq_some_iff.1 h
      obtain ⟨texts, htexts⟩ := hitems.1 ⟨ss, hss⟩
      exact ⟨texts, .list hmany htexts⟩
    · rintro ⟨texts, h⟩
      cases h with
      | scalar single _ => rw [hmany] at single; cases single
      | list many htexts =>
        cases hmany.symm.trans many
        obtain ⟨ss, hss⟩ := hitems.2 ⟨texts, htexts⟩
        exact ⟨.list ss, by rw [hss]; rfl⟩

/-- An accepted variable is the value that was given. -/
theorem Setting.value_eq_of_ofValue? (hv : v.IsPlain) {st : Setting}
    (h : Setting.ofValue? v = some st) : st.value = v := by
  cases hmany : v.listItems? with
  | none =>
    rw [Setting.ofValue?_of_single hv hmany] at h
    obtain ⟨s, hs, rfl⟩ := Option.map_eq_some_iff.1 h
    exact Scalar.value_eq_of_ofValue? hv hs
  | some items =>
    cases hv with
    | null | bool _ | int _ | float _ | str _ | dict _ _ => cases hmany
    | bottomless =>
      cases hmany
      cases h
    | @list items each =>
      obtain ⟨ss, hss, rfl⟩ := Option.map_eq_some_iff.1 h
      have hvalues : ss.map Scalar.value = items := by
        have hall := mapM_eq_some_iff.1 hss
        clear hss hmany h
        induction hall with
        | nil => rfl
        | cons hfirst _ ih =>
          rw [List.forall_mem_cons] at each
          rw [List.map_cons, Scalar.value_eq_of_ofValue? each.1 hfirst, ih each.2]
      rw [Setting.value, hvalues]

/-! ## Dictionaries of variables -/

section Variables

open Dict

variable {style : Style} {resolve : Resolver} {k : String} {named : List (String × Value)}

/-- Whether a value is a list. -/
def Value.isList : Value → Bool
  | .list _ | .bottomless => true
  | _ => false

/-- The quoted placeholder that takes the whole of a value: all items of a list, or the value
itself. -/
def placeFor (k : String) (v : Value) : Placeholder := ⟨false, v.isList, .name k⟩

theorem isList_eq (hv : v.IsPlain) : v.isList = v.listItems?.isSome := by
  cases hv <;> rfl

/-- A placeholder that takes the whole of its value stands for the texts of the value. -/
theorem denotes_whole_iff {verbatim : Bool} {ref : Ref} (hbound : resolve ref = .ok v)
    {texts : List String} :
    Denotes resolve (.placeholder ⟨verbatim, v.listItems?.isSome, ref⟩) texts ↔
      v.HasTexts texts := by
  constructor
  · intro h
    generalize v.listItems?.isSome = list at h
    cases h with
    | scalar bound single text =>
      rw [hbound] at bound
      cases bound
      exact .scalar single text
    | list bound many each =>
      rw [hbound] at bound
      cases bound
      exact .list many each
  · intro h
    cases h with
    | scalar single text =>
      rw [single]
      exact .scalar hbound single text
    | list many each =>
      rw [many]
      exact .list hbound many each

/-- A single part is expanded if it stands for some texts. -/
theorem exists_expand_singleton_iff {context : Context} {part : Part} :
    (∃ line, expand style context [part] = .ok line) ↔
      ∃ texts, Denotes context.resolver part texts := by
  simp only [expand_eq_ok_iff]
  constructor
  · rintro ⟨_, textss, h, -⟩
    cases h with
    | cons hfirst _ => exact ⟨_, hfirst⟩
  · rintro ⟨texts, h⟩
    exact ⟨_, [texts], .cons h .nil, rfl⟩

/-- A plain value is expanded from a dictionary of named values if it stands for some texts. -/
theorem exists_expand_placeFor_iff (hnames : (named.map Prod.fst).Nodup) (hmem : (k, v) ∈ named)
    (hv : v.IsPlain) :
    (∃ line, expand style (.mapping (.dict (entries named))) [.placeholder (placeFor k v)] =
      .ok line) ↔ ∃ texts, v.HasTexts texts := by
  have hbound : (Context.mapping (.dict (entries named))).resolver (.name k) = .ok v := by
    rw [resolver_entries, foundIn, lookup_eq_some_of_mem hnames hmem, givenFor]
  rw [exists_expand_singleton_iff, placeFor, isList_eq hv]
  simp only [denotes_whole_iff hbound]

/-- A configuration is accepted with the variables that are read from its dictionary, or refused. -/
theorem ofValue?_variables (dictionary : Value) :
    Config.ofValue? (.dict [(.str "vars", dictionary)]) =
      (namedEntries? Setting.ofValue? dictionary).map
        fun settings => { Config.default with settings := settings } := by
  cases h : namedEntries? Setting.ofValue? dictionary with
  | none => simp [Config.ofValue?, Config.withField?, h]
  | some settings => simp [Config.ofValue?, Config.withField?, h]

theorem ofValue?_variables_eq_some {dictionary : Value} {config : Config} :
    Config.ofValue? (.dict [(.str "vars", dictionary)]) = some config ↔
      ∃ settings, namedEntries? Setting.ofValue? dictionary = some settings ∧
        { Config.default with settings := settings } = config := by
  rw [ofValue?_variables, Option.map_eq_some_iff]

/-- **Variables are accepted exactly if each of them can be expanded.** -/
theorem exists_ofValue?_variables_iff (style : Style) (hnames : (named.map Prod.fst).Nodup)
    (hplain : ∀ entry ∈ named, entry.2.IsPlain) :
    (∃ config, Config.ofValue? (.dict [(.str "vars", .dict (entries named))]) = some config) ↔
      ∀ entry ∈ named, ∃ line, expand style (.mapping (.dict (entries named)))
        [.placeholder (placeFor entry.1 entry.2)] = .ok line := by
  have hread : (∃ settings, namedEntries? Setting.ofValue? (.dict (entries named)) = some settings) ↔
      ∀ entry ∈ named, ∃ texts, entry.2.HasTexts texts := by
    simp only [namedEntries?_entries _ hnames, mapM_eq_some_iff, exists_forall₂_iff,
      Option.map_eq_some_iff]
    refine forall₂_congr fun entry hentry => ?_
    rw [← Setting.exists_ofValue?_iff (hplain entry hentry)]
    constructor
    · rintro ⟨_, st, hst, -⟩; exact ⟨st, hst⟩
    · rintro ⟨st, hst⟩; exact ⟨_, st, hst, rfl⟩
  simp only [ofValue?_variables_eq_some]
  constructor
  · rintro ⟨_, settings, hsettings, -⟩ entry hentry
    rw [exists_expand_placeFor_iff hnames hentry (hplain entry hentry)]
    exact hread.1 ⟨settings, hsettings⟩ entry hentry
  · intro hlines
    obtain ⟨settings, hsettings⟩ := hread.2 fun entry hentry =>
      (exists_expand_placeFor_iff hnames hentry (hplain entry hentry)).1 (hlines entry hentry)
    exact ⟨_, settings, hsettings, rfl⟩

/-- **Accepted variables are offered as they were given.** -/
theorem context_of_ofValue?_variables (hnames : (named.map Prod.fst).Nodup)
    (hplain : ∀ entry ∈ named, entry.2.IsPlain) {config : Config}
    (h : Config.ofValue? (.dict [(.str "vars", .dict (entries named))]) = some config) :
    config.context = .mapping (.dict (entries named)) := by
  obtain ⟨settings, hsettings, rfl⟩ := ofValue?_variables_eq_some.1 h
  rw [namedEntries?_entries _ hnames, mapM_eq_some_iff] at hsettings
  have hvalues : Config.values { Config.default with settings := settings } = named := by
    clear h hnames
    induction hsettings with
    | nil => rfl
    | @cons entry _ named settings hfirst _ ih =>
      rw [List.forall_mem_cons] at hplain
      obtain ⟨st, hst, rfl⟩ := Option.map_eq_some_iff.1 hfirst
      show (entry.1, st.value) :: Config.values { Config.default with settings := settings } =
        entry :: named
      rw [ih hplain.2, Setting.value_eq_of_ofValue? hplain.1 hst]
  rw [Config.context, hvalues, ofNamed_eq, override_nil_eq_self hnames]

/-- **A variable is accepted exactly if it can be expanded.** A configuration of one variable with a
plain value is accepted exactly if the value gives a line when it is expanded from a dictionary; and
the variable of the accepted configuration gives the same line. -/
theorem variable_accepted_iff_expands (style : Style) (k : String) {v : Value} (hv : v.IsPlain) :
    ((∃ config, Config.ofValue? (.dict [(.str "vars", .dict [(.str k, v)])]) = some config) ↔
      ∃ line, expand style (.mapping (.dict [(.str k, v)])) [.placeholder (placeFor k v)] =
        .ok line) ∧
    ∀ config, Config.ofValue? (.dict [(.str "vars", .dict [(.str k, v)])]) = some config →
      expand style config.context [.placeholder (placeFor k v)] =
        expand style (.mapping (.dict [(.str k, v)])) [.placeholder (placeFor k v)] := by
  have hnames : ([(k, v)].map Prod.fst).Nodup := List.nodup_singleton k
  have hplain : ∀ entry ∈ [(k, v)], entry.2.IsPlain := by
    intro entry hentry
    rw [List.mem_singleton.1 hentry]
    exact hv
  have hentries : entries [(k, v)] = [(.str k, v)] := rfl
  rw [← hentries]
  constructor
  · rw [exists_ofValue?_variables_iff style hnames hplain, List.forall_mem_singleton]
  · intro config hconfig
    rw [context_of_ofValue?_variables hnames hplain hconfig]

/-- A list of a text, a whole number and the binary number one and a half. -/
def mixedList : Value :=
  .list [.str "a b", .int (-3), .float (.finite false 6755399441055744 (-52))]

theorem mixedList_accepted_and_expands :
    mixedList.IsPlain ∧ ∃ config,
      Config.ofValue? (.dict [(.str "vars", .dict [(.str "xs", mixedList)])]) = some config ∧
      expand .minimal config.context [.placeholder (placeFor "xs" mixedList)] =
        .ok "'a b' -3 1.5" := by
  have hplain : mixedList.IsPlain := by
    refine .list fun item hitem => ?_
    simp only [List.mem_cons, List.not_mem_nil, or_false] at hitem
    rcases hitem with rfl | rfl | rfl
    · exact .str _
    · exact .int (by decide)
    · exact .float (by decide)
  have hline : expand .minimal (.mapping (.dict [(.str "xs", mixedList)]))
      [.placeholder (placeFor "xs" mixedList)] = .ok "'a b' -3 1.5" := by
    rw [← except_toOption_eq_some]
    decide +kernel
  obtain ⟨haccepted, hsame⟩ := variable_accepted_iff_expands .minimal "xs" hplain
  obtain ⟨config, hconfig⟩ := haccepted.2 ⟨_, hline⟩
  exact ⟨hplain, config, hconfig, (hsame config hconfig).trans hline⟩

end Variables

end ShellTemplate
