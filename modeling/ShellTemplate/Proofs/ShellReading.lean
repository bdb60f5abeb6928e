import Mathlib.Data.List.Forall2
import ShellTemplate.Proofs.AsciiRuns
import ShellTemplate.Shell.Words

/-!
# How a shell reads texts put next to each other

A reader of command lines carries three things: the words it has finished, the word it is in, and
its place in that word. Two facts about it give everything that is said about whole lines:

* `Rules.run_after` — finished words are never looked at again, so a reader that starts behind some
  words reads on as one that starts afresh;
* `Rules.words?_append_separator` — a text that is read to its end by itself is cut off by a
  separator, and what follows is read by itself.

Principal results: `Rules.words?_spaced` — texts that are read one by one are read one after the
other from the line that has a space between them; `Rules.words?_bare` — ordinary characters that a
reader takes as themselves are one word; `Rules.words?_quoteWord` — a quoted text is exactly one
word, which is the text, in either style and for every reader that takes the safe characters.
-/

set_option autoImplicit false

namespace ShellTemplate.Shell

/-! ## Words behind a reader -/

/-- The same progress with some words before the ones that are read. -/
def Progress.after (ws : List Word) (p : Progress) : Progress := ⟨ws ++ p.words, p.word, p.place⟩

namespace Progress

variable (ws : List Word) (p : Progress)

@[simp] theorem after_place : (p.after ws).place = p.place := rfl

@[simp] theorem allWords_after : (p.after ws).allWords = ws ++ p.allWords := by
  simp [allWords, after]

@[simp] theorem endWord_after : (p.after ws).endWord = p.endWord.after ws := by
  unfold endWord
  rw [allWords_after]
  rfl

@[simp] theorem add_after (c : Char) (meaning : List Char) (place : Place) :
    (p.after ws).add c meaning place = (p.add c meaning place).after ws := rfl

end Progress

namespace Rules

variable (rules : Rules)

theorem stepBare_after (ws : List Word) (p : Progress) (c : Char) :
    rules.stepBare (p.after ws) c = (rules.stepBare p c).map (Progress.after ws) := by
  simp only [stepBare, Progress.endWord_after, Progress.add_after]
  split_ifs <;> rfl

theorem step_after (ws : List Word) (p : Progress) (c : Char) :
    rules.step (p.after ws) c = (rules.step p c).map (Progress.after ws) := by
  unfold step
  rw [Progress.after_place]
  cases p.place with
  | bare => exact rules.stepBare_after ws p c
  | escaped => rfl
  | apostrophes => simp only [Progress.add_after, Option.map_some]; split_ifs <;> rfl
  | doubleQuotes => simp only [Progress.add_after, Option.map_some]; split_ifs <;> rfl
  | doubleQuotesEscaped => rfl

/-- **Finished words are never looked at again.** -/
theorem run_after (ws : List Word) (cs : List Char) (p : Progress) :
    rules.run (p.after ws) cs = (rules.run p cs).map (Progress.after ws) := by
  induction cs generalizing p with
  | nil => rfl
  | cons c cs ih =>
    simp only [run, List.foldlM_cons] at ih ⊢
    rw [step_after]
    cases rules.step p c with
    | none => rfl
    | some q => exact ih q

/-! ## Separators -/

theorem words?_eq_some {cs : List Char} {ws : List Word} :
    rules.words? cs = some ws ↔
      ∃ p, rules.run .start cs = some p ∧ p.place = .bare ∧ p.allWords = ws := by
  unfold words?
  cases rules.run .start cs with
  | none => simp
  | some p => by_cases hp : p.place = .bare <;> simp [hp]

/-- A separator outside of quotations ends the word and leaves a reader with no word begun. -/
theorem step_separator {s : Char} (hs : isSeparator s = true) {p : Progress}
    (hp : p.place = .bare) : rules.step p s = some (Progress.start.after p.allWords) := by
  simp [step, hp, stepBare, hs, Progress.endWord, Progress.start, Progress.after]

/-- **A separator cuts a line in two** that are read by themselves. -/
theorem words?_append_separator {s : Char} (hs : isSeparator s = true) {cs : List Char}
    {ws : List Word} (h : rules.words? cs = some ws) (ds : List Char) :
    rules.words? (cs ++ s :: ds) = (rules.words? ds).map (ws ++ ·) := by
  obtain ⟨p, hrun, hp, rfl⟩ := (words?_eq_some rules).1 h
  have hstep : rules.run p (s :: ds) = (rules.run .start ds).map (Progress.after p.allWords) := by
    rw [← run_after]
    simp only [run, List.foldlM_cons, step_separator rules hs hp]
    rfl
  unfold words?
  rw [run_append, hrun, Option.bind_some, hstep]
  cases rules.run .start ds with
  | none => rfl
  | some q => by_cases hq : q.place = .bare <;> simp [hq]

/-- **Texts with a space between them are read one after the other.** -/
theorem words?_spaced {texts : List (List Char)} {wss : List (List Word)}
    (h : List.Forall₂ (fun t ws => rules.words? t = some ws) texts wss) :
    rules.words? (List.intercalate [' '] texts) = some wss.flatten := by
  induction h with
  | nil => rfl
  | @cons t ws texts wss ht hrest ih =>
    cases hrest with
    | nil => simpa [List.intercalate_singleton] using ht
    | cons _ _ =>
      rw [List.intercalate_cons_cons, List.append_assoc, List.singleton_append,
        words?_append_separator rules (by decide) ht, ih]
      rfl

end Rules

/-! ## Quoted texts -/

/-- A character that has no part in cutting a line or in quoting. -/
def IsOrdinary (c : Char) : Prop := isSeparator c = false ∧ c ≠ '\'' ∧ c ≠ '\\' ∧ c ≠ '"'

/-- What cuts a line or quotes does not have a property, so what has it is ordinary. -/
theorem isOrdinary_of {p : Char → Bool} (h : [' ', '\t', '\n', '\'', '\\', '"'].any p = false)
    {c : Char} (hc : p c = true) : IsOrdinary c := by
  have hne : ∀ d ∈ [' ', '\t', '\n', '\'', '\\', '"'], c ≠ d := by
    rintro d hd rfl
    exact List.any_eq_false.1 h c hd hc
  refine ⟨?_, hne _ (by simp), hne _ (by simp), hne _ (by simp)⟩
  simp [isSeparator, hne]

/-- A character that may stand unquoted has no part in cutting a line or in quoting. -/
theorem isSafe_ordinary {c : Char} (h : isSafe c = true) : IsOrdinary c :=
  isOrdinary_of (by decide) h

theorem isSafeWord_iff {cs : List Char} :
    isSafeWord cs = true ↔ cs ≠ [] ∧ ∀ c ∈ cs, isSafe c = true := by
  rw [isSafeWord, Bool.and_eq_true, Bool.not_eq_true', List.isEmpty_eq_false_iff, List.all_eq_true]

/-- A safe word has only safe characters in it. -/
theorem notMem_of_isSafeWord {cs : List Char} {c : Char} (h : isSafeWord cs = true)
    (hc : isSafe c = false) : c ∉ cs := by
  intro hmem
  rw [(isSafeWord_iff.1 h).2 c hmem] at hc
  cases hc

namespace Rules

variable {rules : Rules}

theorem step_bare {c : Char} (hc : IsOrdinary c) (takes : rules.isItself c = true) {p : Progress}
    (hp : p.place = .bare) : rules.step p c = some (p.add c [c] .bare) := by
  obtain ⟨h1, h2, h3, h4⟩ := hc
  simp [step, hp, stepBare, h1, h2, h3, h4, takes]

/-- Ordinary characters that are themselves go on with a word as they are. -/
theorem run_bare (ws : List Word) :
    ∀ (cs : List Char) (w : Word), (∀ c ∈ cs, IsOrdinary c ∧ rules.isItself c = true) →
      rules.run ⟨ws, some w, .bare⟩ cs = some ⟨ws, some ⟨w.written ++ cs, w.text ++ cs⟩, .bare⟩
  | [], w, _ => by simp [run]
  | c :: cs, w, h => by
    rw [List.forall_mem_cons] at h
    have ih := run_bare ws cs ⟨w.written ++ [c], w.text ++ [c]⟩ h.2
    simp only [List.append_assoc, List.singleton_append] at ih
    rw [← ih]
    simp only [run, List.foldlM_cons]
    rw [step_bare h.1.1 h.1.2 rfl]
    rfl

/-- A text of ordinary characters that are themselves is one word, the text. -/
theorem words?_bare {cs : List Char} (hne : cs ≠ [])
    (h : ∀ c ∈ cs, IsOrdinary c ∧ rules.isItself c = true) :
    rules.words? cs = some [⟨cs, cs⟩] := by
  obtain ⟨c, cs, rfl⟩ := List.exists_cons_of_ne_nil hne
  rw [List.forall_mem_cons] at h
  have hrun : rules.run .start (c :: cs) = some ⟨[], some ⟨c :: cs, c :: cs⟩, .bare⟩ := by
    simp only [run, List.foldlM_cons]
    rw [step_bare h.1.1 h.1.2 rfl]
    exact run_bare [] cs ⟨[c], [c]⟩ h.2
  rw [words?_eq_some]
  exact ⟨_, hrun, rfl, rfl⟩

/-- A reader that takes the safe characters as themselves. -/
def TakesSafe (rules : Rules) : Prop := ∀ c, isSafe c = true → rules.isItself c = true

/-- A bare safe word is read as itself. -/
theorem words?_safe (takes : rules.TakesSafe) {cs : List Char} (h : isSafeWord cs = true) :
    rules.words? cs = some [⟨cs, cs⟩] := by
  obtain ⟨hne, hall⟩ := isSafeWord_iff.1 h
  exact words?_bare hne fun c hc => ⟨isSafe_ordinary (hall c hc), takes c (hall c hc)⟩

variable (rules)

/-- Between apostrophes the quoted form of a text means the text, and the reader stays there: an
apostrophe leaves the quotation, is read behind a backslash, and opens the next quotation. -/
theorem run_quoteChars (ws : List Word) :
    ∀ (cs : List Char) (w : Word),
      rules.run ⟨ws, some w, .apostrophes⟩ (cs.flatMap quoteChar) =
        some ⟨ws, some ⟨w.written ++ cs.flatMap quoteChar, w.text ++ cs⟩, .apostrophes⟩
  | [], w => by simp [run]
  | c :: cs, w => by
    have hc : rules.run ⟨ws, some w, .apostrophes⟩ (quoteChar c) =
        some ⟨ws, some ⟨w.written ++ quoteChar c, w.text ++ [c]⟩, .apostrophes⟩ := by
      by_cases h : c = '\''
      · subst h
        simp [quoteChar, run, step, stepBare, isSeparator, Progress.add]
      · simp [quoteChar, h, run, step, Progress.add]
    rw [List.flatMap_cons, run_append, hc, Option.bind_some, run_quoteChars ws cs]
    simp

/-- A text between apostrophes is one word, the text, for every reader. -/
theorem words?_quote (cs : List Char) : rules.words? (quote cs) = some [⟨quote cs, cs⟩] := by
  have hopen : rules.run .start ['\''] = some ⟨[], some ⟨['\''], []⟩, .apostrophes⟩ := rfl
  have hrun : rules.run .start (quote cs) = some ⟨[], some ⟨quote cs, cs⟩, .bare⟩ := by
    unfold quote
    rw [← List.singleton_append, run_append, hopen, Option.bind_some, run_append, run_quoteChars]
    simp [run, step, Progress.add]
  rw [words?_eq_some]
  exact ⟨_, hrun, rfl, rfl⟩

variable {rules}

/-- **A quoted text is one word, the text, in either style.** -/
theorem words?_quoteWord (takes : rules.TakesSafe) (style : Style) (cs : List Char) :
    rules.words? (quoteWord style cs) = some [⟨quoteWord style cs, cs⟩] := by
  unfold quoteWord
  split
  · rename_i h
    exact words?_safe takes h.2
  · exact words?_quote rules cs

/-! ## The readers that are used -/

theorem isSafe_ascii {c : Char} (h : isSafe c = true) : c.toNat < 128 := by
  simp only [isSafe, Char.isAlphanum, Bool.or_eq_true, List.contains_eq_mem,
    decide_eq_true_eq] at h
  rcases h with (h | h) | h
  · have halpha := toNat_of_isAlpha h
    omega
  · have hdigit := toNat_of_isDigit h
    omega
  · have table : ['@', '%', '+', ':', ',', '.', '/', '_', '-'].all (·.toNat < 128) = true := by
      decide
    simpa using List.all_eq_true.1 table c h

/-- What holds of the safe characters among the ASCII characters holds of all safe characters. -/
theorem forall_isSafe {P : Char → Prop}
    (h : ∀ n < 128, isSafe (Char.ofNat n) = true → P (Char.ofNat n)) {c : Char}
    (hc : isSafe c = true) : P c := by
  have hn := h c.toNat (isSafe_ascii hc)
  rw [Char.ofNat_toNat] at hn
  exact hn hc

theorem isInert_of_isSafe {c : Char} : isSafe c = true → isInert c = true :=
  forall_isSafe (P := fun c => isInert c = true) (by decide +kernel)

theorem strict_takesSafe : strict.TakesSafe := fun _ h => isInert_of_isSafe h

theorem lenient_takesSafe : lenient.TakesSafe := fun _ _ => rfl

end Rules

end ShellTemplate.Shell
