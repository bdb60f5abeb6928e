import ShellTemplate.Proofs.Composition
import ShellTemplate.Proofs.DecimalTexts
import ShellTemplate.Proofs.LineWords

/-!
# Numbers mean nothing to a shell

The text of a number atom is kept as it was given, and it may be inserted without quotes. That is
safe because of what such a text can be: whatever blanks, underscores and foreign digits the reader
of decimals forgives, only digits and six other characters are left in a text that it accepts, and
none of them has a meaning to a shell.

* `magnitude?_chars`, `isNumeralChar_of_ascii` — the characters that a number is read from.
* `isNumeralChar_of_isNumeral` — the characters of the text of a number atom.
* `words?_expand_numbers` — inserted numbers are read as one word each, wherever they stand.
* `Value.IsFiniteNumber` — the finite numbers and their texts; `token_isFiniteNumber` — their tokens
  are these texts with and without quoting.
* `numbers_are_inert` — all of it.
-/

set_option autoImplicit false

namespace ShellTemplate

open Number Shell Template Text

/-! ## The characters of a number -/

/-- The characters that the texts of number atoms are made of: the digits of all scripts, and the
underscore, the point, the signs and the marks of an exponent. -/
def IsNumeralChar (c : Char) : Prop :=
  (digitValue? c).isSome = true ∨ c ∈ ['_', '.', '+', '-', 'e', 'E']

instance : DecidablePred IsNumeralChar := fun _ => inferInstanceAs (Decidable (_ ∨ _))

namespace Number

theorem sign_chars {cs : List Char} (h : ∀ c ∈ (sign cs).2, isNumberChar c = true) :
    ∀ c ∈ cs, isNumberChar c = true := by
  unfold sign at h
  split at h
  · rw [List.forall_mem_cons]
    exact ⟨by decide, h⟩
  · rw [List.forall_mem_cons]
    exact ⟨by decide, h⟩
  · exact h

theorem exponent?_chars {cs : List Char} {e : Int} (h : exponent? cs = some e) :
    ∀ c ∈ cs, isNumberChar c = true := by
  cases cs with
  | nil => rintro c ⟨⟩
  | cons mark rest =>
    simp only [exponent?] at h
    split at h
    · rename_i hmark
      split at h
      · cases h
      · rename_i hdigits
        have hall : ∀ d ∈ (sign rest).2, d.isDigit = true := by simpa using (not_or.1 hdigits).2
        rw [List.forall_mem_cons]
        refine ⟨?_, sign_chars fun c hc => isNumberChar_of_isDigit (hall c hc)⟩
        rcases hmark with rfl | rfl <;> decide
    · cases h

/-- A magnitude is not empty and holds nothing but digits, a point and an exponent. -/
theorem magnitude?_chars {cs : List Char} {m : Nat × Int} (h : magnitude? cs = some m) :
    cs ≠ [] ∧ ∀ c ∈ cs, isNumberChar c = true := by
  have hsplit : cs.takeWhile Char.isDigit ++ cs.dropWhile Char.isDigit = cs :=
    List.takeWhile_append_dropWhile
  have hrun : ∀ ds : List Char, ∀ c ∈ ds.takeWhile Char.isDigit, isNumberChar c = true :=
    fun ds c hc => isNumberChar_of_isDigit (List.mem_takeWhile_imp hc)
  constructor
  · rintro rfl
    cases h
  · rw [← hsplit, List.forall_mem_append]
    refine ⟨hrun cs, ?_⟩
    simp only [magnitude?] at h
    split at h
    · rename_i tail hpoint
      have htail : tail.takeWhile Char.isDigit ++ tail.dropWhile Char.isDigit = tail :=
        List.takeWhile_append_dropWhile
      split at h
      · cases h
      · obtain ⟨e, hexponent, -⟩ := Option.map_eq_some_iff.1 h
        rw [hpoint, List.forall_mem_cons, ← htail, List.forall_mem_append]
        exact ⟨by decide, hrun tail, exponent?_chars hexponent⟩
    · split at h
      · cases h
      · obtain ⟨e, hexponent, -⟩ := Option.map_eq_some_iff.1 h
        exact exponent?_chars hexponent

theorem isNumeralChar_of_isNumberChar {c : Char} (h : isNumberChar c = true) : IsNumeralChar c := by
  simp only [isNumberChar, Bool.or_eq_true, List.contains_iff_mem] at h
  rcases h with h | h
  · exact .inl (by rw [digitValue_ascii h]; rfl)
  · exact .inr (List.mem_cons_of_mem _ h)

/-- What becomes a character of a number in ASCII is one in its own script. -/
theorem isNumeralChar_of_ascii? {c d : Char} (h : Decimal.ascii? c = some d)
    (hd : isNumberChar d = true) : IsNumeralChar c := by
  unfold Decimal.ascii? at h
  split at h
  · cases h
    exact isNumeralChar_of_isNumberChar hd
  · split at h
    · cases h
      exact absurd hd (by decide)
    · obtain ⟨value, hvalue, -⟩ := Option.map_eq_some_iff.1 h
      exact .inl (by rw [hvalue]; rfl)

theorem isNumeralChar_of_ascii {cs ds : List Char} (h : Decimal.ascii cs = some ds)
    (hds : ∀ d ∈ ds, isNumberChar d = true) : ∀ c ∈ cs, IsNumeralChar c := by
  have hkept : ∀ c ∈ cs.filter (· ≠ '_'), IsNumeralChar c := by
    have heach := mapM_eq_some_iff.1 h
    clear h
    generalize cs.filter (· ≠ '_') = kept at heach
    induction heach with
    | nil => rintro c ⟨⟩
    | cons hc _ ih =>
      rw [List.forall_mem_cons] at hds ⊢
      exact ⟨isNumeralChar_of_ascii? hc hds.1, ih hds.2⟩
  intro c hc
  by_cases hdropped : c = '_'
  · exact .inr (by rw [hdropped]; exact List.mem_cons_self)
  · exact hkept c (List.mem_filter.2 ⟨hc, by simpa using hdropped⟩)

end Number

/-- **The text of a number atom is not empty and holds nothing but digits and six signs.** -/
theorem isNumeralChar_of_isNumeral {s : String} (h : isNumeral s = true) :
    s.toList ≠ [] ∧ ∀ c ∈ s.toList, IsNumeralChar c := by
  simp only [isNumeral, Bool.and_eq_true, beq_iff_eq] at h
  obtain ⟨htrim, hfinite⟩ := h
  obtain ⟨n, hn⟩ : ∃ n, Decimal.ofChars? s.toList = some (.finite n) := by
    cases hread : Decimal.ofChars? s.toList with
    | none => rw [hread] at hfinite; cases hfinite
    | some d =>
      rw [hread] at hfinite
      cases d with
      | finite n => exact ⟨n, rfl⟩
      | infinite _ | nan _ _ _ => cases hfinite
  obtain ⟨ds, rest, hascii, hsign, hmag, -⟩ := Decimal.exists_ascii_of_ofChars? hn
  rw [htrim] at hascii
  obtain ⟨hne, hchars⟩ := magnitude?_chars hmag
  have hds : ∀ d ∈ ds, isNumberChar d = true := by
    apply sign_chars
    rw [hsign]
    exact hchars
  refine ⟨?_, isNumeralChar_of_ascii hascii hds⟩
  intro hnil
  rw [hnil] at hascii
  cases hascii
  have hrest : [] = rest := congrArg Prod.snd hsign
  exact hne hrest.symm

/-! ## Numbers among words -/

/-- The characters that a shell gives a meaning to, at some place outside of quotations. -/
def specialChars : List Char := "|&;<>()$`\\\"' \t\n*?[]#~=\x7b\x7d!^".toList

/-- Whether a character is one of them. -/
def isSpecial (c : Char) : Bool := specialChars.contains c

/-- A reader that takes all characters as themselves that are not special. -/
def Shell.Rules.TakesOrdinary (rules : Rules) : Prop :=
  ∀ c, isSpecial c = false → rules.isItself c = true

/-- The reader of lines that refuses special characters, even where a shell would not mind. -/
def Shell.Rules.wary : Rules := ⟨fun c => !isSpecial c, true⟩

theorem Shell.Rules.wary_takesOrdinary : wary.TakesOrdinary := by
  intro c hc
  simpa [wary] using hc

/-- No character of a number is special. -/
theorem isSpecial_eq_false {c : Char} (h : IsNumeralChar c) : isSpecial c = false := by
  have table : specialChars.any (fun d => IsNumeralChar d) = false := by decide
  rw [Bool.eq_false_iff]
  intro hspecial
  exact List.any_eq_false.1 table c (List.contains_iff_mem.1 hspecial) (decide_eq_true h)

theorem isOrdinary_of_not_special {c : Char} (h : isSpecial c = false) : IsOrdinary c :=
  isOrdinary_of (p := fun c => !isSpecial c) (by decide) (by simpa using h)

namespace Shell.Rules

variable {rules : Rules}

/-- **The text of a number atom is one word**, without any quotes. -/
theorem words?_isNumeral (takes : rules.TakesOrdinary) {s : String} (h : isNumeral s = true) :
    rules.words? s.toList = some [⟨s.toList, s.toList⟩] := by
  obtain ⟨hne, hall⟩ := isNumeralChar_of_isNumeral h
  apply words?_bare hne
  intro c hc
  have hspecial := isSpecial_eq_false (hall c hc)
  exact ⟨isOrdinary_of_not_special hspecial, takes c hspecial⟩

/-- A line of tokens behind one that is read to its end is read by itself. -/
theorem words?_spaced_append {tokens tokens' : List String} {ws ws' : List Word}
    (h : rules.words? (spaced tokens).toList = some ws)
    (h' : rules.words? (spaced tokens').toList = some ws') :
    rules.words? (spaced (tokens ++ tokens')).toList = some (ws ++ ws') := by
  have hnil : ∀ {ws}, rules.words? (spaced []).toList = some ws → ws = [] := by
    intro ws hws
    rw [toList_spaced] at hws
    exact (Option.some.inj hws).symm
  rcases eq_or_ne tokens [] with rfl | hne
  · rw [hnil h]
    exact h'
  rcases eq_or_ne tokens' [] with rfl | hne'
  · rw [hnil h', List.append_nil, List.append_nil]
    exact h
  have hchars : (spaced (tokens ++ tokens')).toList =
      (spaced tokens).toList ++ ' ' :: (spaced tokens').toList := by
    rw [spaced_append hne hne']
    simp
  rw [hchars, words?_append_separator rules (by decide) h, h']
  rfl

end Shell.Rules

/-- A value is a number: it is taken for a number atom, with a text that such an atom may have. -/
def Value.IsNumber (v : Value) (s : String) : Prop :=
  Atom.ofValue v = .ok (.number s) ∧ isNumeral s = true

/-- A verbatim placeholder inserts numbers, which have some texts. -/
inductive InsertsNumbers (resolve : Resolver) : Part → List String → Prop where
  | scalar {ref : Ref} {v : Value} {s : String} (bound : resolve ref = .ok v)
    (number : v.IsNumber s) : InsertsNumbers resolve (.placeholder ⟨true, false, ref⟩) [s]
  | list {ref : Ref} {v : Value} {items : List Value} {texts : List String}
    (bound : resolve ref = .ok v) (many : v.listItems? = some items)
    (each : List.Forall₂ Value.IsNumber items texts) :
    InsertsNumbers resolve (.placeholder ⟨true, true, ref⟩) texts

theorem listItems?_eq_none_of_ofValue {v : Value} {a : Atom} (h : Atom.ofValue v = .ok a) :
    v.listItems? = none := by
  cases v with
  | list | bottomless | tuple | range => cases h
  | _ => rfl

section Inserted

variable {resolve : Resolver} {part : Part} {texts : List String}

theorem InsertsNumbers.denotes (h : InsertsNumbers resolve part texts) :
    Denotes resolve part texts ∧ part.isVerbatim = true ∧ ∀ t ∈ texts, isNumeral t = true := by
  cases h with
  | @scalar ref v s bound number =>
    refine ⟨.scalar bound (listItems?_eq_none_of_ofValue number.1) ⟨_, number.1, rfl⟩, rfl, ?_⟩
    simpa using number.2
  | @list ref v items texts bound many each =>
    have htexts : List.Forall₂ Value.HasText items texts :=
      each.imp fun _ _ number => ⟨_, number.1, rfl⟩
    refine ⟨.list bound many htexts, rfl, ?_⟩
    clear htexts many
    induction each with
    | nil => rintro t ⟨⟩
    | cons number _ ih =>
      rw [List.forall_mem_cons]
      exact ⟨number.2, ih⟩

/-- Inserted numbers are read as one word each. -/
theorem InsertsNumbers.words?_tokenOf {rules : Rules} (takes : rules.TakesOrdinary)
    (h : InsertsNumbers resolve part texts) (style : Style) :
    rules.words? (tokenOf style part texts).toList =
      some (texts.map fun s => ⟨s.toList, s.toList⟩) := by
  obtain ⟨-, hverbatim, hall⟩ := h.denotes
  have each : List.Forall₂ (fun t ws => rules.words? t = some ws) (texts.map String.toList)
      (texts.map fun s => [⟨s.toList, s.toList⟩]) := by
    clear h
    induction texts with
    | nil => exact .nil
    | cons s texts ih =>
      rw [List.forall_mem_cons] at hall
      exact .cons (Rules.words?_isNumeral takes hall.1) (ih hall.2)
  rw [tokenOf, inserted, hverbatim, if_pos rfl, toList_spaced, Rules.words?_spaced rules each]
  exact congrArg some List.map_eq_flatMap.symm

/-- **Inserted numbers are read as one word each, wherever they stand in a line**: what is in front
of them and what is behind them is read as it would be without them. -/
theorem words?_expand_numbers {rules : Rules} (takes : rules.TakesOrdinary) {style : Style}
    {context : Context} {before after : List Part} {front back : String} {ws ws' : List Word}
    (h : InsertsNumbers context.resolver part texts)
    (hfront : expand style context before = .ok front)
    (hback : expand style context after = .ok back)
    (hws : rules.words? front.toList = some ws) (hws' : rules.words? back.toList = some ws') :
    ∃ line, expand style context (before ++ part :: after) = .ok line ∧
      rules.words? line.toList = some (ws ++ texts.map (fun s => ⟨s.toList, s.toList⟩) ++ ws') := by
  obtain ⟨textss, hbefore, rfl⟩ := expand_eq_ok_iff.1 hfront
  obtain ⟨textss', hafter, rfl⟩ := expand_eq_ok_iff.1 hback
  have hall : List.Forall₂ (Denotes context.resolver) (before ++ part :: after)
      (textss ++ texts :: textss') :=
    List.rel_append hbefore (.cons h.denotes.1 hafter)
  refine ⟨_, expand_eq_ok_iff.2 ⟨_, hall, rfl⟩, ?_⟩
  have htoken : rules.words? (spaced [tokenOf style part texts]).toList =
      some (texts.map fun s => ⟨s.toList, s.toList⟩) := by
    rw [spaced_singleton]
    exact h.words?_tokenOf takes style
  rw [List.zipWith_append hbefore.length_eq, List.zipWith_cons_cons, ← List.singleton_append,
    List.append_assoc]
  exact Rules.words?_spaced_append hws (Rules.words?_spaced_append htoken hws')

end Inserted

/-! ## Tokens of numbers -/

/-- The finite numbers, each with its text: the whole numbers that can be written, the decimals
within the limits, and the binary numbers. -/
inductive Value.IsFiniteNumber : Value → String → Prop where
  | whole {n : Int} (short : (digits n.natAbs).length ≤ maxDigits) :
    IsFiniteNumber (.int n) (integerText n)
  | decimal {n : Numeral} (range : Decimal.InRange n) :
    IsFiniteNumber (.decimal (.finite n)) (String.ofList (Decimal.finite n).toChars)
  | binary {x : Binary64} (format : x.InFormat) (finite : x.isFinite = true) :
    IsFiniteNumber (.float x) (String.ofList x.toChars)

theorem isSafe_of_isNumberChar {c : Char} (h : isNumberChar c = true) : isSafe c = true := by
  simp only [isNumberChar, Bool.or_eq_true, List.contains_iff_mem] at h
  rcases h with hdigit | hmark
  · simp [isSafe, Char.isAlphanum, hdigit]
  · have table : ∀ d ∈ ['.', '+', '-', 'e', 'E'], isSafe d = true := List.all_eq_true.1 (by decide)
    exact table c hmark

namespace Value.IsFiniteNumber

variable {v : Value} {s : String}

theorem isNumber (h : v.IsFiniteNumber s) : v.IsNumber s := by
  cases h with
  | whole short => exact ⟨(keptAs_int short).atom, isNumeral_integerText short⟩
  | @decimal n range =>
    have hvalid : (Decimal.finite n).Valid := range
    exact ⟨(keptAs_decimal range).atom, isNumeral_decimal hvalid⟩
  | @binary x format finite =>
    have hnumeral : isNumeral (String.ofList x.toChars) = true := by
      rw [isNumeral_toChars format, finite]
    refine ⟨?_, hnumeral⟩
    rw [Atom.ofValue, Atom.ofNumber_float format, finite]
    rfl

/-- The text of a finite number is a sign and what denotes its magnitude. -/
theorem exists_writes (h : v.IsFiniteNumber s) :
    ∃ (negative : Bool) (body : List Char) (c : Nat) (e : Int),
      s.toList = (if negative then ['-'] else []) ++ body ∧ Writes body c e := by
  cases h with
  | @whole n _ => exact ⟨_, _, _, _, toList_integerText n, writes_digits n.natAbs⟩
  | @decimal n _ =>
    refine ⟨n.negative, _, _, _, ?_, Decimal.writes_magnitudeText n⟩
    rw [String.toList_ofList]
    exact Decimal.numeralText_eq n
  | @binary x format finite =>
    cases x with
    | infinite _ | nan => cases finite
    | finite negative m e =>
      obtain ⟨c, k, hwrites, -⟩ := writes_decimalText negative (ofBinary_inRange negative format)
      exact ⟨negative, _, c, k, by rw [String.toList_ofList]; rfl, hwrites⟩

theorem isSafeWord (h : v.IsFiniteNumber s) : isSafeWord s.toList = true := by
  obtain ⟨negative, body, c, e, hs, hwrites⟩ := h.exists_writes
  obtain ⟨d, rest, rfl, -⟩ := hwrites.head
  rw [isSafeWord_iff, hs, List.forall_mem_append]
  refine ⟨by simp, ?_, fun x hx => isSafe_of_isNumberChar (hwrites.plain x hx)⟩
  cases negative with
  | true => simp [isSafe]
  | false => simp

end Value.IsFiniteNumber

/-- **A finite number is its own token**: the minimal style quotes it no more than a verbatim
placeholder does. -/
theorem token_isFiniteNumber {resolve : Resolver} {ref : Ref} {v : Value} {s : String}
    (bound : resolve ref = .ok v) (h : v.IsFiniteNumber s) (index : Nat) :
    token .minimal resolve index (.placeholder ⟨false, false, ref⟩) = .ok s ∧
      ∀ style, token style resolve index (.placeholder ⟨true, false, ref⟩) = .ok s := by
  have hnumber := h.isNumber.1
  have hdenotes : ∀ verbatim, Denotes resolve (.placeholder ⟨verbatim, false, ref⟩) [s] :=
    fun verbatim => .scalar bound (listItems?_eq_none_of_ofValue hnumber) ⟨_, hnumber, rfl⟩
  have hbare : quoteText .minimal s = s := by
    rw [quoteText, quoteWord, if_pos ⟨rfl, h.isSafeWord⟩, String.ofList_toList]
  constructor
  · refine token_eq_ok.2 ⟨[s], hdenotes false, ?_⟩
    show spaced [quoteText .minimal s] = s
    rw [hbare, spaced_singleton]
  · intro style
    refine token_eq_ok.2 ⟨[s], hdenotes true, ?_⟩
    show spaced [s] = s
    exact spaced_singleton s

/-! ## Inertness -/

/-- **Numbers are inert, even where nothing is quoted.** A text that a number atom is built from is
not empty and holds nothing but digits and six signs. So numbers that are inserted verbatim are read
as one word each, wherever they stand, by every reader that takes what is not special as itself. And
a finite number has the same token with quoting, in the minimal style, and without: its text. -/
theorem numbers_are_inert :
    (∀ v a, Atom.numberOf v = .ok a →
      ∃ s, v = .str s ∧ a = .number s ∧ s ≠ "" ∧ ∀ c ∈ s.toList, IsNumeralChar c) ∧
    (∀ (rules : Rules) (style : Style) (context : Context) (before after : List Part) (part : Part)
        (texts : List String) (front back : String) (ws ws' : List Word),
      rules.TakesOrdinary → InsertsNumbers context.resolver part texts →
      expand style context before = .ok front → expand style context after = .ok back →
      rules.words? front.toList = some ws → rules.words? back.toList = some ws' →
      ∃ line, expand style context (before ++ part :: after) = .ok line ∧
        rules.words? line.toList =
          some (ws ++ texts.map (fun s => ⟨s.toList, s.toList⟩) ++ ws')) ∧
    ∀ (resolve : Resolver) (ref : Ref) (v : Value) (s : String) (index : Nat),
      resolve ref = .ok v → v.IsFiniteNumber s →
      token .minimal resolve index (.placeholder ⟨false, false, ref⟩) = .ok s ∧
        ∀ style, token style resolve index (.placeholder ⟨true, false, ref⟩) = .ok s := by
  refine ⟨?_, ?_, ?_⟩
  · intro v a h
    cases v with
    | str s =>
      rw [Atom.numberOf_str] at h
      split at h
      · rename_i hnumeral
        cases h
        obtain ⟨hne, hall⟩ := isNumeralChar_of_isNumeral hnumeral
        exact ⟨s, rfl, rfl, fun hempty => hne (String.toList_eq_nil_iff.2 hempty), hall⟩
      · cases h
    | _ => cases h
  · intro rules style context before after part texts front back ws ws' takes h
    exact words?_expand_numbers takes h
  · intro resolve ref v s index bound h
    exact token_isFiniteNumber bound h index

/-- Numbers of several kinds, one of them with a foreign digit, and a text. -/
def numberContext : Context :=
  .mapping (.dict [(.str "offsets", .list [.int (-5), .atom (.number "_٣.5e-1"),
      .decimal (.finite longZero)]), (.str "scale", .float (.finite true 6755399441055744 (-52))),
    (.str "name", .str "it's; rm")])

theorem numberContext_is_inert :
    (∃ s, Value.str "_٣.5e-1" = .str s ∧ Atom.number "_٣.5e-1" = .number s ∧ s ≠ "" ∧
      ∀ c ∈ s.toList, IsNumeralChar c) ∧
    (∃ line, expand .always numberContext [.literal (.text "it's"),
          .placeholder ⟨true, true, .name "offsets"⟩, .placeholder ⟨false, false, .name "name"⟩] =
        .ok line ∧
      Rules.wary.words? line.toList = some ([⟨"'it'\\''s'".toList, "it's".toList⟩] ++
        ["-5", "_٣.5e-1", "-0E-7"].map (fun s => ⟨s.toList, s.toList⟩) ++
        [⟨"'it'\\''s; rm'".toList, "it's; rm".toList⟩])) ∧
    (token .minimal numberContext.resolver 0 (.placeholder ⟨false, false, .name "scale"⟩) =
        .ok "-1.5" ∧
      ∀ style, token style numberContext.resolver 0 (.placeholder ⟨true, false, .name "scale"⟩) =
        .ok "-1.5") := by
  obtain ⟨hchars, hwords, htokens⟩ := numbers_are_inert
  have hoffsets : InsertsNumbers numberContext.resolver (.placeholder ⟨true, true, .name "offsets"⟩)
      ["-5", "_٣.5e-1", "-0E-7"] := by
    have heach : ∀ s ∈ ["-5", "_٣.5e-1", "-0E-7"], isNumeral s = true := by decide
    simp only [List.forall_mem_cons] at heach
    exact .list (v := .list [_, _, _]) rfl rfl
      (.cons ⟨rfl, heach.1⟩ (.cons ⟨rfl, heach.2.1⟩ (.cons ⟨rfl, heach.2.2.1⟩ .nil)))
  have hscale : (Value.float (.finite true 6755399441055744 (-52))).IsFiniteNumber "-1.5" := by
    have htext : "-1.5".toList = (Binary64.finite true 6755399441055744 (-52)).toChars := by
      decide +kernel
    rw [← @String.ofList_toList "-1.5", htext]
    exact .binary (by decide) rfl
  refine ⟨?_, ?_, ?_⟩
  · exact hchars (.str "_٣.5e-1") _ rfl
  · exact hwords .wary .always numberContext [.literal (.text "it's")]
      [.placeholder ⟨false, false, .name "name"⟩] _ _ "'it'\\''s'" "'it'\\''s; rm'" _ _
      Rules.wary_takesOrdinary hoffsets rfl rfl rfl rfl
  · exact htokens numberContext.resolver (.name "scale") _ _ 0 rfl hscale

end ShellTemplate
