import ShellTemplate.Proofs.Expanding
import ShellTemplate.Proofs.ShellReading

/-!
# A shell reads back what an expansion inserted

The words that a shell reads from an expanded line, part by part.

* `texts?_tokenOf_quoted` — the token of a quoted part is read as the texts of the part, for every
  reader that takes the safe characters.
* `expand_quoted_reads_back` — a line of quoted parts is read as the texts of its parts, even by the
  strict reader; so no text can inject shell syntax, and the style does not matter.
* `expand_reads_part_by_part` — verbatim parts may stand between quoted ones. As long as each
  verbatim text is closed, every part is read as if it stood alone.
-/

set_option autoImplicit false

namespace ShellTemplate

open Shell

namespace Shell.Rules

variable {rules : Rules}

theorem texts?_eq_some {cs : List Char} {ts : List (List Char)} :
    rules.texts? cs = some ts ↔ ∃ ws, rules.words? cs = some ws ∧ ws.map Word.text = ts := by
  simp [texts?]

/-- Texts with a space between them are read one after the other. -/
theorem texts?_spaced {texts : List (List Char)} {tss : List (List (List Char))}
    (h : List.Forall₂ (fun t ts => rules.texts? t = some ts) texts tss) :
    rules.texts? (List.intercalate [' '] texts) = some tss.flatten := by
  have lift : ∃ wss, List.Forall₂ (fun t ws => rules.words? t = some ws) texts wss ∧
      wss.map (List.map Word.text) = tss := by
    induction h with
    | nil => exact ⟨[], .nil, rfl⟩
    | cons ht _ ih =>
      obtain ⟨ws, hws, rfl⟩ := texts?_eq_some.1 ht
      obtain ⟨wss, hwss, rfl⟩ := ih
      exact ⟨ws :: wss, .cons hws hwss, rfl⟩
  obtain ⟨wss, hwss, rfl⟩ := lift
  rw [texts?_eq_some]
  exact ⟨_, words?_spaced rules hwss, List.map_flatten⟩

theorem texts?_quoteText (takes : rules.TakesSafe) (style : Style) (s : String) :
    rules.texts? (quoteText style s).toList = some [s.toList] := by
  rw [quoteText, String.toList_ofList, texts?_eq_some]
  exact ⟨_, words?_quoteWord takes style s.toList, rfl⟩

section Mono

variable {rules' : Rules} (hd : rules.doubleQuotes = rules'.doubleQuotes)
  (hi : ∀ c, rules.isItself c = true → rules'.isItself c = true)
include hd hi

theorem step_mono {p q : Progress} {c : Char} (h : rules.step p c = some q) :
    rules'.step p c = some q := by
  unfold step at h ⊢
  cases hp : p.place with
  | bare =>
    simp only [hp, stepBare, hd] at h ⊢
    split_ifs at h ⊢ <;> simp_all
  | escaped | apostrophes | doubleQuotes | doubleQuotesEscaped => simpa only [hp] using h

/-- What a reader with fewer characters of its own accepts, another one reads alike. -/
theorem run_mono (cs : List Char) {p q : Progress} (h : rules.run p cs = some q) :
    rules'.run p cs = some q := by
  induction cs generalizing p with
  | nil => exact h
  | cons c cs ih =>
    simp only [run, List.foldlM_cons, Option.bind_eq_bind, Option.bind_eq_some_iff] at h ih ⊢
    obtain ⟨r, hr, h⟩ := h
    exact ⟨r, step_mono hd hi hr, ih h⟩

end Mono

/-- A closed text can be read by itself. -/
theorem exists_texts?_of_isClosed {cs : List Char} (h : IsClosed cs) :
    ∃ ts, lenient.texts? cs = some ts := by
  obtain ⟨ws, hws⟩ := Option.isSome_iff_exists.1 h
  obtain ⟨p, hrun, hp, hall⟩ := (words?_eq_some _).1 hws
  have hlenient : lenient.run .start cs = some p :=
    @run_mono uncommented lenient rfl (fun _ _ => rfl) cs _ _ hrun
  have hwords : lenient.words? cs = some ws := (words?_eq_some _).2 ⟨p, hlenient, hp, hall⟩
  exact ⟨_, texts?_eq_some.2 ⟨ws, hwords, rfl⟩⟩

end Shell.Rules

open Shell.Rules

/-! ## Quoted parts -/

variable {rules : Rules} {style : Style} {context : Context} {parts : List Part} {line : String}

/-- The token of a quoted part is read as the texts of the part; an empty list leaves no word. -/
theorem texts?_tokenOf_quoted (takes : rules.TakesSafe) {part : Part}
    (hq : part.isVerbatim = false) (texts : List String) :
    rules.texts? (tokenOf style part texts).toList = some (texts.map String.toList) := by
  have each : List.Forall₂ (fun t ts => rules.texts? t = some ts)
      ((texts.map (quoteText style)).map String.toList) (texts.map fun t => [t.toList]) := by
    induction texts with
    | nil => exact .nil
    | cons t texts ih => exact .cons (texts?_quoteText takes style t) ih
  rw [tokenOf, inserted, hq, if_neg (by decide), toList_spaced, texts?_spaced each]
  exact congrArg some List.map_eq_flatMap.symm

/-- If each token is read by itself, the line is read token by token. -/
theorem texts?_line {textss : List (List String)} {wordss : List (List (List Char))}
    (h : List.Forall₂ (fun token words => rules.texts? token = some words)
      ((List.zipWith (tokenOf style) parts textss).map String.toList) wordss) :
    rules.texts? (spaced (List.zipWith (tokenOf style) parts textss)).toList =
      some wordss.flatten := by
  rw [toList_spaced]
  exact texts?_spaced h

/-- A line of quoted parts is read as the texts of its parts. -/
theorem texts?_quoted_line (takes : rules.TakesSafe) (style : Style) {resolve : Resolver}
    {textss : List (List String)} (hq : ∀ p ∈ parts, p.isVerbatim = false)
    (h : List.Forall₂ (Denotes resolve) parts textss) :
    rules.texts? (spaced (List.zipWith (tokenOf style) parts textss)).toList =
      some (textss.flatten.map String.toList) := by
  have each : List.Forall₂ (fun token words => rules.texts? token = some words)
      ((List.zipWith (tokenOf style) parts textss).map String.toList)
      (textss.map (List.map String.toList)) := by
    induction h with
    | nil => exact .nil
    | cons _ _ ih =>
      refine .cons (texts?_tokenOf_quoted takes (hq _ List.mem_cons_self) _) ?_
      exact ih fun p hp => hq p (List.mem_cons_of_mem _ hp)
  rw [texts?_line each, List.map_flatten]

/-- **No text can inject shell syntax.** A line of quoted parts is accepted by the strict reader,
which reads the unquoted texts of the parts and nothing else; the other style succeeds too and is
read alike. -/
theorem expand_quoted_reads_back (hq : ∀ p ∈ parts, p.isVerbatim = false)
    (h : expand style context parts = .ok line) :
    ∃ textss, List.Forall₂ (Denotes context.resolver) parts textss ∧
      Rules.strict.texts? line.toList = some (textss.flatten.map String.toList) ∧
      ∀ other, ∃ line', expand other context parts = .ok line' ∧
        Rules.strict.texts? line'.toList = Rules.strict.texts? line.toList := by
  obtain ⟨textss, hts, rfl⟩ := expand_eq_ok_iff.1 h
  have reads := fun style => texts?_quoted_line strict_takesSafe style hq hts
  refine ⟨textss, hts, reads style, fun other => ?_⟩
  exact ⟨_, expand_eq_ok_iff.2 ⟨textss, hts, rfl⟩, (reads other).trans (reads style).symm⟩

/-- Values that are quotations, comments and commands if they are not quoted, or no texts at all. -/
def hostileContext : Context :=
  .mapping (.dict [(.str "files", .list [.str "it's; rm -rf *", .str "", .int (-5)]),
    (.str "none", .tuple []), (.str "name", .str "a\n#\\"), (.str "raw", .str "-x 'y z'"),
    (.str "options", .list [.str "\"a\\\"b\" c", .str "", .str "d\\ e"])])

/-- Parts of the three quoted kinds. -/
def quotedParts : List Part :=
  [.literal (.identifier "rm"), .literal (.text "$(id)"), .placeholder ⟨false, true, .name "files"⟩,
    .placeholder ⟨false, true, .name "none"⟩, .placeholder ⟨false, false, .name "name"⟩]

/-- Their line. -/
def quotedLine : String := "rm '$(id)' 'it'\\''s; rm -rf *' '' -5  'a\n#\\'"

theorem quotedLine_reads_back :
    (∀ p ∈ quotedParts, p.isVerbatim = false) ∧
      expand .minimal hostileContext quotedParts = .ok quotedLine ∧
      ∃ textss, List.Forall₂ (Denotes hostileContext.resolver) quotedParts textss ∧
        Rules.strict.texts? quotedLine.toList = some (textss.flatten.map String.toList) ∧
        ∀ other, ∃ line', expand other hostileContext quotedParts = .ok line' ∧
          Rules.strict.texts? line'.toList = Rules.strict.texts? quotedLine.toList := by
  have hq : ∀ p ∈ quotedParts, p.isVerbatim = false := by decide
  have h : expand .minimal hostileContext quotedParts = .ok quotedLine := rfl
  exact ⟨hq, h, expand_quoted_reads_back hq h⟩

/-! ## Verbatim parts -/

/-- The words that a shell reads for a part: the texts of a quoted part, and of a verbatim part what
each text is read as by itself. -/
inductive ReadsAs (resolve : Resolver) : Part → List (List Char) → Prop where
  | quoted {part : Part} {texts : List String} (quoted : part.isVerbatim = false)
    (denotes : Denotes resolve part texts) : ReadsAs resolve part (texts.map String.toList)
  | verbatim {part : Part} {texts : List String} {wordss : List (List (List Char))}
    (verbatim : part.isVerbatim = true) (denotes : Denotes resolve part texts)
    (each : List.Forall₂ (fun t words => Rules.lenient.texts? t = some words)
      (texts.map String.toList) wordss) : ReadsAs resolve part wordss.flatten

/-- Closed texts that are inserted as they are can be read one by one. -/
theorem exists_texts?_verbatim {texts : List String} (hc : ∀ t ∈ texts, IsClosed t.toList) :
    ∃ wordss, List.Forall₂ (fun t words => Rules.lenient.texts? t = some words)
      (texts.map String.toList) wordss := by
  induction texts with
  | nil => exact ⟨[], .nil⟩
  | cons t texts ih =>
    obtain ⟨words, hw⟩ := exists_texts?_of_isClosed (hc t List.mem_cons_self)
    obtain ⟨wordss, hws⟩ := ih fun u hu => hc u (List.mem_cons_of_mem _ hu)
    exact ⟨words :: wordss, .cons hw hws⟩

/-- The token of a part is read as the part is. -/
theorem exists_texts?_tokenOf (style : Style) {resolve : Resolver} {part : Part}
    {texts : List String} (h : Denotes resolve part texts)
    (hc : part.isVerbatim = true → ∀ t ∈ texts, IsClosed t.toList) :
    ∃ words, ReadsAs resolve part words ∧
      Rules.lenient.texts? (tokenOf style part texts).toList = some words := by
  cases hv : part.isVerbatim with
  | false => exact ⟨_, .quoted hv h, texts?_tokenOf_quoted lenient_takesSafe hv texts⟩
  | true =>
    obtain ⟨wordss, each⟩ := exists_texts?_verbatim (hc hv)
    refine ⟨_, .verbatim hv h each, ?_⟩
    rw [tokenOf, inserted, hv, if_pos rfl, toList_spaced]
    exact texts?_spaced each

/-- **No quoted value merges with a neighbour, splits it or swallows it.** Where the verbatim texts
are closed, the words of the line are those of its parts, one part after the other. -/
theorem expand_reads_part_by_part (h : expand style context parts = .ok line)
    (hc : ∀ p ∈ parts, p.isVerbatim = true →
      ∀ texts, Denotes context.resolver p texts → ∀ t ∈ texts, IsClosed t.toList) :
    ∃ wordss, List.Forall₂ (ReadsAs context.resolver) parts wordss ∧
      Rules.lenient.texts? line.toList = some wordss.flatten := by
  obtain ⟨textss, hts, rfl⟩ := expand_eq_ok_iff.1 h
  have each : ∃ wordss, List.Forall₂ (ReadsAs context.resolver) parts wordss ∧
      List.Forall₂ (fun token words => Rules.lenient.texts? token = some words)
        ((List.zipWith (tokenOf style) parts textss).map String.toList) wordss := by
    clear h
    induction hts with
    | nil => exact ⟨[], .nil, .nil⟩
    | cons ht _ ih =>
      obtain ⟨words, hw, hread⟩ := exists_texts?_tokenOf style ht
        fun hv => hc _ List.mem_cons_self hv _ ht
      obtain ⟨wordss, hws, hreads⟩ := ih fun p hp => hc p (List.mem_cons_of_mem _ hp)
      exact ⟨words :: wordss, .cons hw hws, .cons hread hreads⟩
  obtain ⟨wordss, hws, hreads⟩ := each
  exact ⟨wordss, hws, texts?_line hreads⟩

/-- Quoted and verbatim parts, one of them with nothing to insert. -/
def mixedParts : List Part :=
  [.literal (.text "it's"), .placeholder ⟨true, false, .name "raw"⟩,
    .placeholder ⟨false, true, .name "none"⟩, .placeholder ⟨true, true, .name "options"⟩,
    .placeholder ⟨false, false, .name "name"⟩]

/-- Their line. -/
def mixedLine : String := "'it'\\''s' -x 'y z'  \"a\\\"b\" c  d\\ e 'a\n#\\'"

theorem mixedLine_reads_part_by_part :
    expand .always hostileContext mixedParts = .ok mixedLine ∧
      (∀ p ∈ mixedParts, p.isVerbatim = true →
        ∀ texts, Denotes hostileContext.resolver p texts → ∀ t ∈ texts, IsClosed t.toList) ∧
      ∃ wordss, List.Forall₂ (ReadsAs hostileContext.resolver) mixedParts wordss ∧
        Rules.lenient.texts? mixedLine.toList = some wordss.flatten := by
  have h : expand .always hostileContext mixedParts = .ok mixedLine := rfl
  have hraw : Denotes hostileContext.resolver (.placeholder ⟨true, false, .name "raw"⟩)
      ["-x 'y z'"] := (@partTexts_eq_ok _ 0 _ _).1 rfl
  have hoptions : Denotes hostileContext.resolver (.placeholder ⟨true, true, .name "options"⟩)
      ["\"a\\\"b\" c", "", "d\\ e"] := (@partTexts_eq_ok _ 0 _ _).1 rfl
  have hc : ∀ p ∈ mixedParts, p.isVerbatim = true →
      ∀ texts, Denotes hostileContext.resolver p texts → ∀ t ∈ texts, IsClosed t.toList := by
    intro p hp hv texts ht
    simp only [mixedParts, List.mem_cons, List.not_mem_nil, or_false] at hp
    rcases hp with rfl | rfl | rfl | rfl | rfl
    · cases hv
    · rw [ht.unique hraw]
      decide
    · cases hv
    · rw [ht.unique hoptions]
      decide
    · cases hv
  exact ⟨h, hc, expand_reads_part_by_part h hc⟩

end ShellTemplate
