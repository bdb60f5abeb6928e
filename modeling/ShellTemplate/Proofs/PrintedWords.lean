import ShellTemplate.CommandLine.Basic
import ShellTemplate.Config.Runnable
import ShellTemplate.Proofs.LineWords

/-!
# A shell reads back what the program prints

Off a terminal the program leaves the escape sequences out of what it prints, those inside quoted
texts as well. No sequence goes past the end of a quotation, so each text loses its own sequences
and nothing else happens to the line.

* `withoutEscapes_eq_self_iff` — a text is left as it is exactly if it holds no escape sequence.
* `echoRed_eq` — a line in red loses its colour off a terminal, and nothing else.
* `Leaves` — what is left of a text wherever it stands; `leaves_quote`, `leaves_intercalate`.
* `PrintsBack` — an output is read as some texts, each without its escape sequences.
* `outcome_prints_back` — the outputs of quoting and of rendering quoted parts are read as the words
  and as the texts of the parts, each without its escape sequences; so they are read as these very
  texts exactly if there is no escape sequence in any of them.
-/

set_option autoImplicit false

namespace ShellTemplate

open Shell

namespace Terminal

/-! ## Leaving escape sequences out -/

/-- An escape sequence stands somewhere in a text. -/
def HoldsEscape (cs : List Char) : Prop := ∃ rest, rest <:+ cs ∧ (behindEscape? rest).isSome = true

variable {cs ds rest : List Char}

@[simp] theorem withoutEscapes_nil : withoutEscapes [] = [] :=
  withoutEscapes_eq_self List.not_mem_nil

theorem withoutEscapes_found (h : behindEscape? cs = some rest) :
    withoutEscapes cs = withoutEscapes rest := by
  rw [withoutEscapes]
  split
  · next found => rw [h] at found; cases found; rfl
  · next missing => rw [h] at missing; cases missing

theorem withoutEscapes_cons {c : Char} (h : behindEscape? (c :: cs) = none) :
    withoutEscapes (c :: cs) = c :: withoutEscapes cs := by
  rw [withoutEscapes]
  split
  · next found => rw [h] at found; cases found
  · rfl

theorem behindEscape?_cons_of_ne {c : Char} (h : c ≠ escapeChar) :
    behindEscape? (c :: cs) = none := by
  unfold behindEscape?
  split
  · next heq => rw [if_neg ((List.cons.inj heq).1 ▸ h)]
  · rfl

theorem length_withoutEscapes_le (cs : List Char) : (withoutEscapes cs).length ≤ cs.length := by
  fun_induction withoutEscapes cs with
  | case1 cs rest found ih => exact ih.trans (behindEscape_lt found).le
  | case2 => exact le_rfl
  | case3 c rest missing ih => exact Nat.succ_le_succ ih

theorem holdsEscape_cons_iff {c : Char} (h : behindEscape? (c :: cs) = none) :
    HoldsEscape (c :: cs) ↔ HoldsEscape cs := by
  constructor
  · rintro ⟨rest, hrest, hfound⟩
    rcases List.suffix_cons_iff.1 hrest with rfl | hsuffix
    · rw [h] at hfound; cases hfound
    · exact ⟨rest, hsuffix, hfound⟩
  · rintro ⟨rest, hrest, hfound⟩
    exact ⟨rest, hrest.trans (List.suffix_cons c cs), hfound⟩

/-- A text is left as it is exactly if it holds no escape sequence. -/
theorem withoutEscapes_eq_self_iff (cs : List Char) :
    withoutEscapes cs = cs ↔ ¬HoldsEscape cs := by
  fun_induction withoutEscapes cs with
  | case1 cs rest found _ =>
    have hholds : HoldsEscape cs := ⟨cs, List.suffix_rfl, by rw [found]; rfl⟩
    have hlt : (withoutEscapes rest).length < cs.length :=
      (length_withoutEscapes_le rest).trans_lt (behindEscape_lt found)
    constructor
    · intro heq; rw [heq] at hlt; exact absurd hlt (lt_irrefl _)
    · intro hnot; exact absurd hholds hnot
  | case2 missing =>
    refine ⟨fun _ => ?_, fun _ => rfl⟩
    rintro ⟨rest, hrest, hfound⟩
    rw [List.suffix_nil.1 hrest] at hfound
    cases hfound
  | case3 c rest missing ih =>
    rw [List.cons_inj_right, ih, holdsEscape_cons_iff missing]

/-! ## Lines in red -/

/-- An escape character ends whatever stands before it: no sequence goes on behind it. -/
theorem behindEscape?_append_escape (hne : cs ≠ []) (rest : List Char) :
    behindEscape? (cs ++ escapeChar :: rest) =
      (behindEscape? cs).map (· ++ escapeChar :: rest) := by
  have hstop : isParameter escapeChar = false := by decide
  obtain ⟨c, cs, rfl⟩ := List.exists_cons_of_ne_nil hne
  rcases cs with _ | ⟨d, cs⟩
  · rfl
  by_cases hd : d = '['
  swap
  · simp [behindEscape?, hd]
  subst hd
  by_cases hc : c = escapeChar
  swap
  · simp [behindEscape?, hc]
  subst hc
  simp only [behindEscape?, List.cons_append, if_true, List.dropWhile_append]
  cases cs.dropWhile isParameter with
  | nil => simp [hstop, show escapeChar.isAlpha = false by decide]
  | cons e after => cases he : e.isAlpha <;> simp [he]

theorem withoutEscapes_append_escape (cs rest : List Char) :
    withoutEscapes (cs ++ escapeChar :: rest) =
      withoutEscapes cs ++ withoutEscapes (escapeChar :: rest) := by
  fun_induction withoutEscapes cs with
  | case1 cs tail found ih =>
    have hne : cs ≠ [] := fun hnil => by rw [hnil] at found; cases found
    rw [withoutEscapes_found (by rw [behindEscape?_append_escape hne, found]; rfl), ih]
  | case2 => rfl
  | case3 c tail missing ih =>
    have hnone := behindEscape?_append_escape (List.cons_ne_nil c tail) rest
    rw [missing, List.cons_append] at hnone
    rw [List.cons_append, withoutEscapes_cons hnone, ih, List.cons_append]

/-- A line in red is in red on a terminal only. -/
theorem echoRed_eq (terminal : Bool) (line : String) :
    echoRed terminal line = echo terminal (if terminal then red line else line) := by
  cases terminal with
  | true => rfl
  | false =>
    have hstart : behindEscape? (red line).toList =
        some (line.toList ++ escapeChar :: "[0m".toList) := by
      rw [red, String.toList_append, String.toList_append]
      rfl
    have hend : withoutEscapes (escapeChar :: "[0m".toList) = [] :=
      (withoutEscapes_found rfl).trans withoutEscapes_nil
    have hleft : withoutEscapes (red line).toList = withoutEscapes line.toList := by
      rw [withoutEscapes_found hstart, withoutEscapes_append_escape, hend, List.append_nil]
    simp [echoRed, echo, hleft]

/-! ## Texts inside a line -/

/-- What is left of a text, whatever follows it: none of its escape sequences goes on behind it. -/
def Leaves (cs ds : List Char) : Prop := ∀ rest, withoutEscapes (cs ++ rest) = ds ++ withoutEscapes rest

theorem Leaves.withoutEscapes_eq (h : Leaves cs ds) : withoutEscapes cs = ds := by
  simpa using h []

theorem leaves_nil : Leaves [] [] := fun _ => rfl

theorem Leaves.append {cs' ds' : List Char} (h : Leaves cs ds) (h' : Leaves cs' ds') :
    Leaves (cs ++ cs') (ds ++ ds') := by
  intro rest
  rw [List.append_assoc, h, h', List.append_assoc]

theorem leaves_singleton {c : Char} (h : c ≠ escapeChar) : Leaves [c] [c] :=
  fun _ => withoutEscapes_cons (behindEscape?_cons_of_ne h)

/-- A text without the escape character is left as it is. -/
theorem leaves_plain (h : escapeChar ∉ cs) : Leaves cs cs := by
  induction cs with
  | nil => exact leaves_nil
  | cons c cs ih =>
    rw [List.mem_cons, not_or] at h
    exact (leaves_singleton (Ne.symm h.1)).append (ih h.2)

theorem leaves_intercalate {sep : List Char} (hsep : escapeChar ∉ sep) {css dss : List (List Char)}
    (h : List.Forall₂ Leaves css dss) : Leaves (List.intercalate sep css) (List.intercalate sep dss) := by
  induction h with
  | nil => exact leaves_nil
  | cons hfirst hrest ih =>
    cases hrest with
    | nil => simpa [List.intercalate_singleton] using hfirst
    | cons _ _ =>
      rw [List.intercalate_cons_cons, List.intercalate_cons_cons]
      exact (hfirst.append (leaves_plain hsep)).append ih

/-! ## Quoted texts -/

/-- Parameters of an escape sequence are not quoted, and an apostrophe ends them. -/
theorem dropWhile_isParameter_quoted (cs tail : List Char) :
    (cs.flatMap quoteChar ++ '\'' :: tail).dropWhile isParameter =
      (cs.dropWhile isParameter).flatMap quoteChar ++ '\'' :: tail := by
  have hstop : isParameter '\'' = false := by decide
  induction cs with
  | nil => simp [hstop]
  | cons c cs ih =>
    by_cases hc : c = '\''
    · subst hc
      simp [quoteChar, hstop]
    · cases hp : isParameter c with
      | true => simpa [quoteChar, hc, hp] using ih
      | false => simp [quoteChar, hc, hp]

/-- An escape sequence starts a text between apostrophes exactly if it starts the text. -/
theorem behindEscape?_quoted (cs tail : List Char) :
    behindEscape? (cs.flatMap quoteChar ++ '\'' :: tail) =
      (behindEscape? cs).map fun rest => rest.flatMap quoteChar ++ '\'' :: tail := by
  have hapostrophe : '\'' ≠ escapeChar := by decide
  rcases cs with _ | ⟨c, cs⟩
  · exact behindEscape?_cons_of_ne hapostrophe
  by_cases hc : c = escapeChar
  swap
  · rw [behindEscape?_cons_of_ne hc]
    by_cases hq : c = '\'' <;>
      simp [quoteChar, hq, behindEscape?_cons_of_ne, hc, hapostrophe]
  subst hc
  rcases cs with _ | ⟨d, cs⟩
  · rfl
  by_cases hd : d = '['
  swap
  · by_cases hq : d = '\'' <;> simp [quoteChar, hq, behindEscape?, hd, escapeChar]
  subst hd
  have hfront : (escapeChar :: '[' :: cs).flatMap quoteChar ++ '\'' :: tail =
      escapeChar :: '[' :: (cs.flatMap quoteChar ++ '\'' :: tail) := rfl
  rw [hfront]
  simp only [behindEscape?, if_true, dropWhile_isParameter_quoted]
  rcases cs.dropWhile isParameter with _ | ⟨e, after⟩
  · rfl
  by_cases hq : e = '\''
  · subst hq; rfl
  · cases he : e.isAlpha <;> simp [quoteChar, hq, he]

theorem withoutEscapes_quoted (cs tail : List Char) :
    withoutEscapes (cs.flatMap quoteChar ++ '\'' :: tail) =
      (withoutEscapes cs).flatMap quoteChar ++ withoutEscapes ('\'' :: tail) := by
  fun_induction withoutEscapes cs with
  | case1 cs rest found ih =>
    rw [withoutEscapes_found (by rw [behindEscape?_quoted, found]; rfl), ih]
  | case2 => rfl
  | case3 c rest missing ih =>
    by_cases hc : c = '\''
    · subst hc
      have hquoted : Leaves (quoteChar '\'') (quoteChar '\'') := leaves_plain (by decide)
      rw [List.flatMap_cons, List.append_assoc, hquoted, ih, List.flatMap_cons, List.append_assoc]
    · have hchar : quoteChar c = [c] := if_neg hc
      have hnone := behindEscape?_quoted (c :: rest) tail
      simp only [List.flatMap_cons, hchar, missing, List.cons_append, List.nil_append,
        Option.map_none] at hnone ⊢
      rw [withoutEscapes_cons hnone, ih]

/-- A quoted text loses the escape sequences of the text. -/
theorem leaves_quote (cs : List Char) : Leaves (quote cs) (quote (withoutEscapes cs)) := by
  have hapostrophe : Leaves ['\''] ['\''] := leaves_singleton (by decide)
  intro rest
  have hopen := hapostrophe (cs.flatMap quoteChar ++ '\'' :: rest)
  have hclose := hapostrophe rest
  simp only [List.singleton_append] at hopen hclose
  simp only [quote, List.cons_append, List.append_assoc, List.nil_append]
  rw [hopen, withoutEscapes_quoted, hclose]

/-! ## Printed lines -/

/-- What is left of a text is read as some words. -/
def PrintsAs (rules : Rules) (cs : List Char) (ts : List (List Char)) : Prop :=
  ∃ ds, Leaves cs ds ∧ rules.texts? ds = some ts

variable {rules : Rules}

/-- In either style a quoted text is printed as one word, the text without its escape sequences. -/
theorem printsAs_quoteWord (takes : rules.TakesSafe) (style : Style) (cs : List Char) :
    PrintsAs rules (quoteWord style cs) [withoutEscapes cs] := by
  unfold quoteWord
  split
  · next bare =>
    have hplain : escapeChar ∉ cs := notMem_of_isSafeWord bare.2 (by decide)
    refine ⟨cs, leaves_plain hplain, ?_⟩
    rw [withoutEscapes_eq_self hplain, Rules.texts?_eq_some]
    exact ⟨_, Rules.words?_safe takes bare.2, rfl⟩
  · refine ⟨_, leaves_quote cs, ?_⟩
    rw [Rules.texts?_eq_some]
    exact ⟨_, Rules.words?_quote rules _, rfl⟩

/-- Texts with a space between them are printed one after the other. -/
theorem printsAs_spaced {css : List (List Char)} {tss : List (List (List Char))}
    (h : List.Forall₂ (PrintsAs rules) css tss) :
    PrintsAs rules (List.intercalate [' '] css) tss.flatten := by
  have lift : ∃ dss, List.Forall₂ Leaves css dss ∧
      List.Forall₂ (fun ds ts => rules.texts? ds = some ts) dss tss := by
    induction h with
    | nil => exact ⟨[], .nil, .nil⟩
    | cons hfirst _ ih =>
      obtain ⟨ds, hleaves, hreads⟩ := hfirst
      obtain ⟨dss, hleavess, hreadss⟩ := ih
      exact ⟨ds :: dss, .cons hleaves hleavess, .cons hreads hreadss⟩
  obtain ⟨dss, hleavess, hreadss⟩ := lift
  exact ⟨_, leaves_intercalate (by decide) hleavess, Rules.texts?_spaced hreadss⟩

/-- A quoted part is printed as its texts, each without its escape sequences. -/
theorem printsAs_tokenOf (takes : rules.TakesSafe) (style : Style) {part : Part}
    (hq : part.isVerbatim = false) (texts : List String) :
    PrintsAs rules (tokenOf style part texts).toList
      (texts.map fun t => withoutEscapes t.toList) := by
  have each : List.Forall₂ (PrintsAs rules) ((texts.map (quoteText style)).map String.toList)
      (texts.map fun t => [withoutEscapes t.toList]) := by
    induction texts with
    | nil => exact .nil
    | cons t texts ih =>
      refine .cons ?_ ih
      rw [quoteText, String.toList_ofList]
      exact printsAs_quoteWord takes style t.toList
  have hflat : (texts.map fun t => withoutEscapes t.toList) =
      (texts.map fun t => [withoutEscapes t.toList]).flatten := List.map_eq_flatMap
  rw [tokenOf, inserted, hq, if_neg (by decide), toList_spaced, hflat]
  exact printsAs_spaced each

/-- A line of quoted parts is printed as the texts of its parts. -/
theorem printsAs_line (takes : rules.TakesSafe) (style : Style) {resolve : Resolver}
    {parts : List Part} {textss : List (List String)} (hq : ∀ p ∈ parts, p.isVerbatim = false)
    (h : List.Forall₂ (Denotes resolve) parts textss) :
    PrintsAs rules (spaced (List.zipWith (tokenOf style) parts textss)).toList
      (textss.flatten.map fun t => withoutEscapes t.toList) := by
  have each : List.Forall₂ (PrintsAs rules)
      ((List.zipWith (tokenOf style) parts textss).map String.toList)
      (textss.map (List.map fun t => withoutEscapes t.toList)) := by
    induction h with
    | nil => exact .nil
    | cons _ _ ih =>
      refine .cons (printsAs_tokenOf takes style (hq _ List.mem_cons_self) _) ?_
      exact ih fun p hp => hq p (List.mem_cons_of_mem _ hp)
  rw [toList_spaced, List.map_flatten]
  exact printsAs_spaced each

/-- A printed line is cut off by its newline. -/
theorem texts?_echo_append {line : String} {ts : List (List Char)}
    (h : PrintsAs rules line.toList ts) (rest : List Char) :
    rules.texts? ((echo false line).toList ++ rest) = (rules.texts? rest).map (ts ++ ·) := by
  obtain ⟨ds, hleaves, hreads⟩ := h
  obtain ⟨ws, hwords, rfl⟩ := Rules.texts?_eq_some.1 hreads
  have hline : (echo false line).toList ++ rest = ds ++ '\n' :: rest := by
    simp [echo, hleaves.withoutEscapes_eq]
  rw [hline, Rules.texts?, Rules.words?_append_separator rules rfl hwords, Rules.texts?]
  cases rules.words? rest <;> simp

/-! ## Outputs -/

/-- The strict reader reads some texts from an output, each without its escape sequences. -/
structure PrintsBack (output : String) (texts : List String) : Prop where
  reads : Rules.strict.texts? output.toList = some (texts.map fun t => withoutEscapes t.toList)
  exact_iff : Rules.strict.texts? output.toList = some (texts.map String.toList) ↔
    ∀ t ∈ texts, ¬HoldsEscape t.toList

theorem printsBack_of_reads {output : String} {texts : List String}
    (h : Rules.strict.texts? output.toList = some (texts.map fun t => withoutEscapes t.toList)) :
    PrintsBack output texts := by
  refine ⟨h, ?_⟩
  rw [h, Option.some_inj, List.map_inj_left]
  exact forall₂_congr fun t _ => withoutEscapes_eq_self_iff t.toList

end Terminal

namespace CommandLine

open Terminal

/-! ## Quoting -/

variable {packages : Packages} {files : Files} {words : List String}

theorem ofArguments?_quote (hne : words ≠ []) :
    Command.ofArguments? ("quote" :: "--" :: words) = some (.quote words) := by
  have hread : Arguments.read? globalForms false ("quote" :: "--" :: words) =
      some ⟨[], "quote" :: "--" :: words⟩ := rfl
  have hquote : Command.quoteOf? ("--" :: words) = some (.quote words) := by
    obtain ⟨word, words, rfl⟩ := List.exists_cons_of_ne_nil hne
    rfl
  exact hquote

theorem outcome_quote (errors : Bool) (hne : words ≠ []) :
    outcome packages ⟨false, errors⟩ files ("quote" :: "--" :: words) =
      ⟨0, String.join (words.map fun w => echo false (quoteText .always w)), ""⟩ := by
  unfold outcome
  rw [ofArguments?_quote hne]
  simp [run, Function.comp_def]

/-- Quoted words are printed line by line and read one after the other. -/
theorem printsBack_quoted (words : List String) :
    PrintsBack (String.join (words.map fun w => echo false (quoteText .always w))) words := by
  refine printsBack_of_reads ?_
  induction words with
  | nil => rfl
  | cons w words ih =>
    have hword : PrintsAs Rules.strict (quoteText .always w).toList [withoutEscapes w.toList] := by
      rw [quoteText, String.toList_ofList]
      exact printsAs_quoteWord Rules.strict_takesSafe .always w.toList
    rw [List.map_cons, String.join_cons, String.toList_append, texts?_echo_append hword, ih]
    rfl

/-! ## Rendering -/

variable {r : Rendering} {args : List String}

theorem rendered_eq_ok {line : String} :
    rendered packages files r = .ok line ↔ ∃ values config, assignedValues r = .ok values ∧
      configFor packages files r.file = .ok config ∧ lineOf config values r = .ok line := by
  simp only [rendered, except_bind_eq_ok, except_mapError_eq_ok]
  constructor
  · rintro ⟨values, hvalues, config, hconfig, hline⟩
    exact ⟨values, config, hvalues, hconfig, hline⟩
  · rintro ⟨values, config, hvalues, hconfig, hline⟩
    exact ⟨values, hvalues, config, hconfig, hline⟩

theorem lineOf_eq_ok {config : Config} {values : List (String × Value)} {line : String} :
    lineOf config values r = .ok line ↔ ∃ parts style,
      Template.parse ((config.template? r.template).getD r.template) = .ok parts ∧
      styleFor config r.style = .ok style ∧
      expand style (.chain [.mapping (.dict (Dict.ofNamed values)), config.context]) parts =
        .ok line := by
  simp only [lineOf, except_bind_eq_ok]
  constructor
  · rintro ⟨parts, hparts, style, hstyle, hline⟩
    exact ⟨parts, style, hparts, hstyle, hline⟩
  · rintro ⟨parts, style, hparts, hstyle, hline⟩
    exact ⟨parts, hparts, style, hstyle, hline⟩

/-- A rendering that gives a line prints it and nothing else. -/
theorem outcome_of_rendered_ok (streams : Streams)
    (hargs : Command.ofArguments? args = some (.render r)) {line : String}
    (h : rendered packages files r = .ok line) :
    outcome packages streams files args = ⟨0, echo streams.output line, ""⟩ := by
  have hrun : run packages files (.render r) = .ok [line] := by rw [run, h]; rfl
  have hjoin : String.join [echo streams.output line] = echo streams.output line := by
    simp [String.join]
  simp only [outcome, hargs, hrun, List.map_cons, List.map_nil, hjoin]

/-- A rendering that fails prints nothing but the failure. -/
theorem outcome_of_rendered_error (streams : Streams)
    (hargs : Command.ofArguments? args = some (.render r)) {failure : Failure}
    (h : rendered packages files r = .error failure) :
    outcome packages streams files args =
      ⟨1, "", echoRed streams.errors ("Error: " ++ failure.message)⟩ := by
  have hrun : run packages files (.render r) = .error failure := by rw [run, h]; rfl
  simp only [outcome, hargs, hrun]

/-- A rendering that succeeds prints its line. -/
theorem outcome_render {errors : Bool} (hargs : Command.ofArguments? args = some (.render r))
    (hstatus : (outcome packages ⟨false, errors⟩ files args).status = 0) :
    ∃ line, rendered packages files r = .ok line ∧
      (outcome packages ⟨false, errors⟩ files args).output = echo false line := by
  cases hrendered : rendered packages files r with
  | error failure =>
    rw [outcome_of_rendered_error _ hargs hrendered] at hstatus
    have hone : (1 : UInt32) ≠ 0 := by decide
    exact absurd hstatus hone
  | ok line =>
    refine ⟨line, rfl, ?_⟩
    rw [outcome_of_rendered_ok _ hargs hrendered]

/-- **What the program prints off a terminal.** Quoting and rendering succeed with an output that is
read as the words and as the texts of the quoted parts, each without its escape sequences. So the
output is read as these texts themselves exactly if none of them holds an escape sequence. -/
theorem outcome_prints_back (packages : Packages) (errors : Bool) (files : Files) :
    (∀ words, words ≠ [] → ∃ output,
      outcome packages ⟨false, errors⟩ files ("quote" :: "--" :: words) = ⟨0, output, ""⟩ ∧
        PrintsBack output words) ∧
    (∀ args r, Command.ofArguments? args = some (.render r) →
      (outcome packages ⟨false, errors⟩ files args).status = 0 → ∃ config values parts,
        configFor packages files r.file = .ok config ∧ assignedValues r = .ok values ∧
        Template.parse ((config.template? r.template).getD r.template) = .ok parts ∧
        ((∀ p ∈ parts, p.isVerbatim = false) → ∃ textss,
          List.Forall₂
            (Denotes (Context.chain [.mapping (.dict (Dict.ofNamed values)), config.context]).resolver)
            parts textss ∧
          PrintsBack (outcome packages ⟨false, errors⟩ files args).output textss.flatten)) := by
  refine ⟨fun words hne => ⟨_, outcome_quote errors hne, printsBack_quoted words⟩, ?_⟩
  intro args r hargs hstatus
  obtain ⟨line, hrendered, houtput⟩ := outcome_render hargs hstatus
  obtain ⟨values, config, hvalues, hconfig, hline⟩ := rendered_eq_ok.1 hrendered
  obtain ⟨parts, style, hparts, -, hexpand⟩ := lineOf_eq_ok.1 hline
  refine ⟨config, values, parts, hconfig, hvalues, hparts, fun hq => ?_⟩
  obtain ⟨textss, hts, rfl⟩ := expand_eq_ok_iff.1 hexpand
  refine ⟨textss, hts, printsBack_of_reads ?_⟩
  have hprints := printsAs_line Rules.strict_takesSafe style hq hts
  have hread := texts?_echo_append hprints []
  rw [List.append_nil] at hread
  rw [houtput, hread]
  simp [Rules.texts?, Rules.words?, Rules.run, Progress.start, Progress.allWords]

/-- A current directory without files in it or above it. -/
def noFiles : Files := ⟨⟨true, []⟩, fun _ => none⟩

/-- Words with an escape sequence, an apostrophe and nothing in them. -/
def colouredWords : List String := ["\x1b[1mred\x1b[0m", "it's", ""]

/-- Arguments with an escape sequence in one value and an apostrophe in another. -/
def colouredArguments : List String :=
  ["render", "-l", "files=\x1b[31mx,it's", "cp \x7b*files\x7d ''"]

/-- What they ask for. -/
def colouredRendering : Rendering :=
  ⟨"cp \x7b*files\x7d ''", [], ["files=\x1b[31mx,it's"], none, none⟩

/-- The parts of the template. -/
def colouredParts : List Part :=
  [.literal (.identifier "cp"), .placeholder ⟨false, true, .name "files"⟩, .literal (.text "")]

/-- The values that are given. -/
def colouredValues : List (String × Value) := [("files", .list [.str "\x1b[31mx", .str "it's"])]

theorem parse_coloured : Template.parse colouredRendering.template = .ok colouredParts := by
  rw [← except_toOption_eq_some]
  decide +kernel

theorem outcome_coloured_prints_back :
    colouredWords ≠ [] ∧
      (∃ output, outcome .runnable ⟨false, true⟩ noFiles ("quote" :: "--" :: colouredWords) =
        ⟨0, output, ""⟩ ∧ PrintsBack output colouredWords) ∧
      Command.ofArguments? colouredArguments = some (.render colouredRendering) ∧
      (outcome .runnable ⟨false, true⟩ noFiles colouredArguments).status = 0 ∧
      (∀ p ∈ colouredParts, p.isVerbatim = false) ∧
      ∃ textss, List.Forall₂
          (Denotes (Context.chain [.mapping (.dict (Dict.ofNamed colouredValues)),
            Config.default.context]).resolver) colouredParts textss ∧
        PrintsBack (outcome .runnable ⟨false, true⟩ noFiles colouredArguments).output
          textss.flatten := by
  have hne : colouredWords ≠ [] := by decide
  have hargs : Command.ofArguments? colouredArguments = some (.render colouredRendering) := rfl
  have hstatus : (outcome .runnable ⟨false, true⟩ noFiles colouredArguments).status = 0 := by
    decide +kernel
  have hquoted : ∀ p ∈ colouredParts, p.isVerbatim = false := by decide
  obtain ⟨config, values, parts, hconfig, hvalues, hparts, hprints⟩ :=
    (outcome_prints_back .runnable true noFiles).2 colouredArguments colouredRendering hargs hstatus
  cases hconfig
  cases hvalues
  cases parse_coloured.symm.trans hparts
  exact ⟨hne, (outcome_prints_back .runnable true noFiles).1 colouredWords hne, hargs, hstatus,
    hquoted, hprints hquoted⟩

/-- **A word with an escape sequence is not read back**: what is printed is another word. -/
theorem quoted_escape_sequence_is_lost :
    ∃ output, outcome .runnable ⟨false, false⟩ noFiles ["quote", "--", "\x1b[31mred"] =
        ⟨0, output, ""⟩ ∧
      Rules.strict.texts? output.toList = some ["red".toList] ∧ "red" ≠ "\x1b[31mred" := by
  refine ⟨_, outcome_quote false (by decide), ?_, by decide⟩
  have hfound : behindEscape? "\x1b[31mred".toList = some "red".toList := rfl
  have hleft : withoutEscapes "\x1b[31mred".toList = "red".toList :=
    (withoutEscapes_found hfound).trans (withoutEscapes_eq_self (by decide))
  have hread := (printsBack_quoted ["\x1b[31mred"]).reads
  rw [hread, List.map_singleton, hleft]

end CommandLine

end ShellTemplate
