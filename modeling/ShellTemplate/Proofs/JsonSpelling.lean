import ShellTemplate.Json.Grammar
import ShellTemplate.Proofs.JsonRoundtrip

/-!
# Every spelling of a value is scanned

The grammar leaves the spelling of a value open: the white space, the escapes, the form of a number.
The scanners take each spelling up to its end, whatever follows it.

* `readBody_bodyOf` — what stands between the quotes of a string, escape by escape.
* `number?_spelled` — a number, up to a character that does not go on with it.
* `element?_upcoming`, `member?_upcoming` — the next text of a row, with the white space around it.

Principal result: `skip_valueOf` — a value is passed over, however it is nested.
-/

set_option autoImplicit false

namespace ShellTemplate.Json

open Number
open Template (IsDigits)

/-! ## Strings -/

theorem hex4?_isHex {n : Nat} {ds : List Char} (h : IsHex n ds) (rest : List Char) :
    hex4? (ds ++ rest) = some (n, rest) := by
  obtain ⟨hlength, values, hvalues, hn⟩ := h
  obtain ⟨a, b, c, d, rfl⟩ : ∃ a b c d, ds = [a, b, c, d] := by
    match ds, hlength with
    | [a, b, c, d], _ => exact ⟨a, b, c, d, rfl⟩
  simp only [List.mapM_cons, List.mapM_nil, Option.bind_eq_bind, Option.bind_eq_some_iff,
    Option.pure_def, Option.some.injEq] at hvalues
  obtain ⟨a', ha, _, ⟨b', hb, _, ⟨c', hc, _, ⟨d', hd, _, rfl, rfl⟩, rfl⟩, rfl⟩, rfl⟩ := hvalues
  subst hn
  simp [hex4?, ha, hb, hc, hd]

/-- A character is no half of a surrogate pair. -/
theorem toNat_bounds (c : Char) :
    c.toNat < 0xD800 ∨ 0xDFFF < c.toNat ∧ c.toNat < 0x110000 :=
  c.valid

theorem unicodeEscape?_unit {c : Char} {n : Nat} {ds : List Char} (one : units c = [n])
    (hex : IsHex n ds) (rest : List Char) : unicodeEscape? (ds ++ rest) = some (c, rest) := by
  have hbounds := toNat_bounds c
  obtain ⟨-, rfl⟩ : c.toNat < 0x10000 ∧ n = c.toNat := by
    unfold units at one
    split at one
    · exact ⟨‹_›, by simpa using one.symm⟩
    · simp at one
  have hlow : isLowSurrogate c.toNat = false := by
    simp only [isLowSurrogate, Bool.and_eq_false_imp, decide_eq_true_eq, decide_eq_false_iff_not]
    omega
  have hhigh : isHighSurrogate c.toNat = false := by
    simp only [isHighSurrogate, Bool.and_eq_false_imp, decide_eq_true_eq, decide_eq_false_iff_not]
    omega
  simp [unicodeEscape?, hex4?_isHex hex, hlow, hhigh, Char.ofNat_toNat]

theorem unicodeEscape?_pair {c : Char} {high low : Nat} {ds es : List Char}
    (two : units c = [high, low]) (first : IsHex high ds) (second : IsHex low es)
    (rest : List Char) : unicodeEscape? (ds ++ '\\' :: 'u' :: (es ++ rest)) = some (c, rest) := by
  have hbounds := toNat_bounds c
  obtain ⟨hlarge, hhalf, hrest⟩ : 0x10000 ≤ c.toNat ∧ high = 0xD800 + (c.toNat - 0x10000) / 0x400 ∧
      low = 0xDC00 + (c.toNat - 0x10000) % 0x400 := by
    unfold units at two
    split at two
    · simp at two
    · simp only [List.cons.injEq, and_true] at two
      exact ⟨by omega, two.1.symm, two.2.symm⟩
  have hhigh : isHighSurrogate high = true := by
    simp only [isHighSurrogate, Bool.and_eq_true, decide_eq_true_eq]
    omega
  have hfirst : isLowSurrogate high = false := by
    simp only [isLowSurrogate, Bool.and_eq_false_imp, decide_eq_true_eq, decide_eq_false_iff_not]
    omega
  have hlow : isLowSurrogate low = true := by
    simp only [isLowSurrogate, Bool.and_eq_true, decide_eq_true_eq]
    omega
  have hchar : ofSurrogates high low = c := by
    have hcode : 0x10000 + (high - 0xD800) * 0x400 + (low - 0xDC00) = c.toNat := by omega
    rw [ofSurrogates, hcode, Char.ofNat_toNat]
  simp [unicodeEscape?, hex4?_isHex first, hex4?_isHex second, hfirst, hhigh, hlow, hchar]

theorem unescape?_shortEscapes {letter c : Char} (h : (letter, c) ∈ shortEscapes) :
    letter ≠ 'u' ∧ unescape? letter = some c := by
  simp only [shortEscapes, List.mem_cons, Prod.mk.injEq, List.not_mem_nil, or_false] at h
  rcases h with ⟨rfl, rfl⟩ | ⟨rfl, rfl⟩ | ⟨rfl, rfl⟩ | ⟨rfl, rfl⟩ | ⟨rfl, rfl⟩ | ⟨rfl, rfl⟩ |
    ⟨rfl, rfl⟩ | ⟨rfl, rfl⟩ <;> exact ⟨by decide, rfl⟩

/-- A character is read from each way to write it. -/
theorem readBody_charOf {written : List Char} {c : Char} (h : CharOf written c)
    (read rest : List Char) : readBody read (written ++ rest) = readBody (c :: read) rest := by
  cases h with
  | plain other visible =>
    exact readBody_plain other.1 other.2 (Nat.not_lt.2 visible) read rest
  | short escape =>
    obtain ⟨hletter, hchar⟩ := unescape?_shortEscapes escape
    exact readBody_short hletter hchar read rest
  | unit one hex => exact readBody_unicode (unicodeEscape?_unit one hex rest)
  | pair two first second =>
    have hread := unicodeEscape?_pair two first second rest
    simp only [List.cons_append, List.append_assoc]
    exact readBody_unicode hread

/-- **A string is read from each way to write it**, up to its closing quote. -/
theorem readBody_bodyOf {source text : List Char} (h : BodyOf source text)
    (read rest : List Char) :
    readBody read (source ++ '"' :: rest) = some (read.reverse ++ text, rest) := by
  induction h generalizing read with
  | nil => simp [readBody_end]
  | cons first _ ih =>
    rw [List.append_assoc, readBody_charOf first, ih]
    simp

/-- A string starts with a quote, and what is behind the quote is read. -/
theorem StringOf.exists_body {source text : List Char} (h : StringOf source text) :
    ∃ tail, source = '"' :: tail ∧ ∀ rest, readBody [] (tail ++ rest) = some (text, rest) := by
  obtain ⟨body⟩ := h
  refine ⟨_, rfl, fun rest => ?_⟩
  rw [List.append_assoc]
  exact readBody_bodyOf body [] rest

/-! ## White space -/

theorem skipSpace_gap (gap : Gap) (cs : List Char) : skipSpace (gap.chars ++ cs) = skipSpace cs :=
  List.dropWhile_append_of_pos gap.space

theorem skipSpace_gap_cons (gap : Gap) {c : Char} (h : isSpace c = false) (rest : List Char) :
    skipSpace (gap.chars ++ c :: rest) = c :: rest := by
  rw [skipSpace_gap, skipSpace_cons h]

/-! ## Numbers -/

/-- What may follow a value: white space, a comma, a closing bracket or the end. -/
def Ends (rest : List Char) : Prop :=
  ∀ c ∈ rest.head?, isSpace c = true ∨ c = ',' ∨ c = ']' ∨ c = '}'

/-- What follows a value does not go on with a number. -/
theorem Ends.stops {rest : List Char} (h : Ends rest) :
    ∀ c ∈ rest.head?, c.isDigit = false ∧ c ≠ '.' ∧ c ≠ 'e' ∧ c ≠ 'E' := by
  intro c hc
  have hcases := h c hc
  simp only [isSpace, Bool.or_eq_true, decide_eq_true_eq] at hcases
  rcases hcases with (((rfl | rfl) | rfl) | rfl) | rfl | rfl | rfl <;> decide

theorem isEmpty_eq_false {α : Type} {xs : List α} (h : xs ≠ []) : xs.isEmpty = false := by
  simpa using h

theorem exponent?_spelled {cs rest : List Char} (h : IsExponent cs)
    (stop : ∀ c ∈ rest.head?, c.isDigit = false ∧ c ≠ 'e' ∧ c ≠ 'E') :
    exponent? (cs ++ rest) = some (!cs.isEmpty, rest) := by
  rcases h with rfl | ⟨e, sign, ds, rfl, he, hsign, hds⟩
  · cases rest with
    | nil => rfl
    | cons c rest =>
      obtain ⟨-, he, hE⟩ := stop c rfl
      simp [exponent?, he, hE]
  · have htake := takeWhile_run hds.2 fun c hc => (stop c hc).1
    have hdrop := dropWhile_run hds.2 fun c hc => (stop c hc).1
    have hbehind : (Number.sign (sign ++ (ds ++ rest))).2 = ds ++ rest := by
      rcases hsign with rfl | rfl | rfl
      · obtain ⟨d, ds', rfl⟩ := List.exists_cons_of_ne_nil hds.1
        have hd := hds.2 d List.mem_cons_self
        rw [List.nil_append, List.cons_append, Number.sign.eq_def]
        split
        · rename_i heq; cases heq; exact absurd hd (by decide)
        · rename_i heq; cases heq; exact absurd hd (by decide)
        · rfl
      · rfl
      · rfl
    simp [exponent?, he, hbehind, htake, hdrop, isEmpty_eq_false hds.1]

theorem fraction?_spelled {cs rest : List Char} (h : IsFraction cs)
    (stop : ∀ c ∈ rest.head?, c.isDigit = false ∧ c ≠ '.') :
    fraction? (cs ++ rest) = some (!cs.isEmpty, rest) := by
  rcases h with rfl | ⟨ds, rfl, hds⟩
  · rw [List.nil_append, fraction?.eq_def]
    split
    · exact absurd rfl (stop '.' rfl).2
    · rfl
  · have htake := takeWhile_run hds.2 fun c hc => (stop c hc).1
    have hdrop := dropWhile_run hds.2 fun c hc => (stop c hc).1
    simp [fraction?, htake, hdrop, isEmpty_eq_false hds.1]

theorem IsExponent.stops {cs rest : List Char} (h : IsExponent cs)
    (stop : ∀ c ∈ rest.head?, c.isDigit = false ∧ c ≠ '.') :
    ∀ c ∈ (cs ++ rest).head?, c.isDigit = false ∧ c ≠ '.' := by
  rcases h with rfl | ⟨e, sign, ds, rfl, rfl | rfl, -, -⟩
  · exact stop
  · rintro c ⟨⟩; decide
  · rintro c ⟨⟩; decide

theorem IsFraction.stops {cs rest : List Char} (h : IsFraction cs)
    (stop : ∀ c ∈ rest.head?, c.isDigit = false) :
    ∀ c ∈ (cs ++ rest).head?, c.isDigit = false := by
  rcases h with rfl | ⟨ds, rfl, -⟩
  · exact stop
  · rintro c ⟨⟩; decide

/-- **A number is read from each way to write it**, up to what may follow a value. -/
theorem number?_spelled {minus ds fraction exponent rest : List Char}
    (sign : minus = [] ∨ minus = ['-']) (whole : IsWholePart ds) (hf : IsFraction fraction)
    (he : IsExponent exponent) (ends : Ends rest) :
    number? (minus ++ ds ++ (fraction ++ exponent) ++ rest) =
      some (⟨minus ++ ds, fraction.isEmpty && exponent.isEmpty⟩, rest) := by
  have stop := ends.stops
  have hexponent := exponent?_spelled he fun c hc => ⟨(stop c hc).1, (stop c hc).2.2⟩
  have hbehind := he.stops fun c hc => ⟨(stop c hc).1, (stop c hc).2.1⟩
  have hfraction := fraction?_spelled hf hbehind
  have hdigits := hf.stops fun c hc => (hbehind c hc).1
  have htake := takeWhile_run whole.digits.2 hdigits
  have hdrop := dropWhile_run whole.digits.2 hdigits
  have hlead : ¬ (ds.head? = some '0' ∧ 1 < ds.length) := fun h => by
    rw [whole.lead h.1] at h
    exact absurd h.2 (lt_irrefl 1)
  have hminus : ∀ tail, ds ++ (fraction ++ (exponent ++ rest)) ≠ '-' :: tail := by
    obtain ⟨d, ds', rfl⟩ := List.exists_cons_of_ne_nil whole.digits.1
    rintro tail ⟨⟩
    exact absurd (whole.digits.2 '-' List.mem_cons_self) (by decide)
  have hds : ds.isEmpty = false := isEmpty_eq_false whole.digits.1
  simp only [List.append_assoc]
  unfold number?
  rcases sign with rfl | rfl
  · split
    rename_i minus unsigned hsign
    split at hsign
    · exact absurd ‹_› (hminus _)
    · cases hsign
      simp [htake, hdrop, hlead, hds, hfraction, hexponent]
  · simp [htake, hdrop, hlead, hds, hfraction, hexponent]

/-! ## Rows -/

/-- What is still to be read of a row, in front of what is behind its texts: at its start the texts
with a comma between two of them, behind one of its texts a comma in front of each. -/
def upcoming (first : Bool) (gap : Gap) (texts : List (List Char)) (behind : List Char) :
    List Char :=
  gap.chars ++ ((if first then commas texts else texts.flatMap (',' :: ·)) ++ behind)

theorem row_append (opening closing : Char) (lead : Gap) (texts : List (List Char))
    (rest : List Char) :
    row opening lead texts closing ++ rest =
      opening :: upcoming true lead texts (closing :: rest) := by
  simp [row, upcoming]

/-- The first of the texts that are still to be read, and what is to be read behind it. -/
theorem upcoming_cons (first : Bool) (gap : Gap) (text : List Char) (texts : List (List Char))
    (behind : List Char) :
    upcoming first gap (text :: texts) behind =
      gap.chars ++
        ((if first then [] else [',']) ++ (text ++ upcoming false Gap.none texts behind)) := by
  cases first <;> simp [upcoming, commas_cons, Gap.none]

theorem gap_upcoming (gap : Gap) (texts : List (List Char)) (behind : List Char) :
    gap.chars ++ upcoming false Gap.none texts behind = upcoming false gap texts behind := rfl

theorem length_lt_upcoming (gap : Gap) (texts : List (List Char)) (c : Char) (rest : List Char) :
    texts.length < (upcoming true gap texts (c :: rest)).length + 1 := by
  have hlength := length_le_commas texts
  simp only [upcoming, if_true, List.length_append, List.length_cons]
  omega

/-- What is to be read behind a value of a row ends the value. -/
theorem ends_upcoming {closing : Char} (h : closing = ']' ∨ closing = '}') (gap : Gap)
    (texts : List (List Char)) (rest : List Char) :
    Ends (upcoming false gap texts (closing :: rest)) := by
  intro c hc
  obtain ⟨chars, hspace⟩ := gap
  cases chars with
  | cons d chars =>
    obtain rfl : d = c := Option.some.inj hc
    exact .inl (hspace d List.mem_cons_self)
  | nil =>
    cases texts with
    | nil =>
      obtain rfl : closing = c := Option.some.inj hc
      exact .inr (.inr h)
    | cons text texts =>
      obtain rfl : ',' = c := Option.some.inj hc
      exact .inr (.inl rfl)

theorem element?_upcoming_nil (first : Bool) (gap : Gap) (rest : List Char) :
    element? first (upcoming first gap [] (']' :: rest)) = some (.close rest) := by
  have hskip := skipSpace_gap_cons gap (show isSpace ']' = false by decide) rest
  cases first <;> simp [upcoming, commas, element?, hskip]

/-- The next element starts behind its comma and its white space. -/
theorem element?_upcoming {item : Spaced} {c : Char} {tail : List Char}
    (head : item.source = c :: tail) (visible : isSpace c = false) (other : c ≠ ']') (first : Bool)
    (gap : Gap) (texts : List (List Char)) (behind : List Char) :
    element? first (upcoming first gap (item.text :: texts) behind) =
      some (.element (item.source ++ upcoming false item.after texts behind)) := by
  have hskip := skipSpace_gap_cons item.before visible
  rw [upcoming_cons, Spaced.text, List.append_assoc, gap_upcoming, List.append_assoc, head]
  cases first with
  | true => simp [element?, skipSpace_gap, hskip, other]
  | false =>
    have hcomma := skipSpace_gap_cons gap (show isSpace ',' = false by decide)
    simp [element?, hcomma, hskip, other]

theorem member?_upcoming_nil (first : Bool) (gap : Gap) (rest : List Char) :
    member? first (upcoming first gap [] ('}' :: rest)) = some (.close rest) := by
  have hskip := skipSpace_gap_cons gap (show isSpace '}' = false by decide) rest
  cases first <;> simp [upcoming, commas, member?, hskip]

/-- The name of the next member is read, and its value comes next. -/
theorem member?_upcoming {m : MemberText} {name : List Char}
    (named : StringOf m.name.source name) (first : Bool) (gap : Gap) (texts : List (List Char))
    (behind : List Char) :
    member? first (upcoming first gap (m.text :: texts) behind) =
      some (.member name
        (m.value.before.chars ++
          (m.value.source ++ upcoming false m.value.after texts behind))) := by
  obtain ⟨tail, hsource, hread⟩ := named.exists_body
  have hname : ∀ rest, memberName? (m.name.source ++ (m.name.after.chars ++ ':' :: rest)) =
      some (.member name rest) := by
    intro rest
    have hcolon := skipSpace_gap_cons m.name.after (show isSpace ':' = false by decide) rest
    simp [hsource, memberName?, hread, hcolon]
  have hskip := skipSpace_gap_cons m.name.before (show isSpace '"' = false by decide)
  have htext : m.text ++ upcoming false Gap.none texts behind =
      m.name.before.chars ++ (m.name.source ++ (m.name.after.chars ++ ':' ::
        (m.value.before.chars ++ (m.value.source ++
          upcoming false m.value.after texts behind)))) := by
    simp only [MemberText.text, Spaced.text, List.append_assoc, List.cons_append, gap_upcoming]
  rw [upcoming_cons, htext]
  rw [hsource] at hname ⊢
  cases first with
  | true => simpa [member?, skipSpace_gap, hskip] using hname _
  | false =>
    have hcomma := skipSpace_gap_cons gap (show isSpace ',' = false by decide)
    simpa [member?, hcomma, hskip] using hname _

/-! ## Values -/

theorem IsShortWhole.isNumber {source : List Char} (h : IsShortWhole source) : IsNumber source := by
  obtain ⟨sign, whole, -⟩ := h
  have hnumber := IsNumber.mk sign whole (.inl rfl) (.inl rfl)
  simpa using hnumber

/-- A value whose numbers are of one form is one whose numbers are of a wider form. -/
theorem ValueOf.mono {Form Form' : List Char → Prop} (wider : ∀ source, Form source → Form' source)
    {source : List Char} (h : ValueOf Form source) : ValueOf Form' source := by
  induction h with
  | word known => exact .word known
  | number form => exact .number (wider _ form)
  | string string => exact .string string
  | array lead _ ih => exact .array lead ih
  | object lead named _ ih => exact .object lead named ih

/-- A number starts with a minus or a digit. -/
theorem IsNumber.head {source : List Char} (h : IsNumber source) :
    ∃ c tail, source = c :: tail ∧ (c = '-' ∨ c.isDigit = true) := by
  obtain ⟨rfl | rfl, whole, -, -⟩ := h
  · obtain ⟨d, ds, rfl⟩ := List.exists_cons_of_ne_nil whole.digits.1
    exact ⟨d, _, rfl, .inr (whole.digits.2 d List.mem_cons_self)⟩
  · exact ⟨'-', _, rfl, .inl rfl⟩

theorem isSpace_eq_false_of_number {c : Char} (h : c = '-' ∨ c.isDigit = true) :
    isSpace c = false := by
  by_contra hspace
  simp only [isSpace, Bool.not_eq_false, Bool.or_eq_true, decide_eq_true_eq] at hspace
  rcases hspace with ((rfl | rfl) | rfl) | rfl <;> exact absurd h (by decide)

/-- A text is an object of some members, whose values are of the format. -/
def ObjectOf (members : List MemberText) (source : List Char) : Prop :=
  (∃ lead, source = row '{' lead (members.map MemberText.text) '}') ∧
    (∀ m ∈ members, ∃ name, StringOf m.name.source name) ∧
    ∀ m ∈ members, ValueOf IsNumber m.value.source

/-- What the first character of a value tells about the value. -/
structure Opening (source : List Char) (c : Char) (tail : List Char) : Prop where
  cons : source = c :: tail
  visible : isSpace c = false
  inside : c ≠ ']'
  string : c = '"' → ∃ text, StringOf source text
  number : c = '-' ∨ c.isDigit = true → IsNumber source
  object : c = '{' → ∃ members, ObjectOf members source

/-- **The first character of a value tells its type.** -/
theorem ValueOf.opening {source : List Char} (h : ValueOf IsNumber source) :
    ∃ c tail, Opening source c tail := by
  cases h with
  | word known =>
    simp only [List.mem_cons, List.not_mem_nil, or_false] at known
    rcases known with rfl | rfl | rfl <;> exact ⟨_, _, rfl, by decide, by decide,
      fun h => absurd h (by decide), fun h => absurd h (by decide), fun h => absurd h (by decide)⟩
  | number form =>
    obtain ⟨c, tail, hsource, hc⟩ := form.head
    refine ⟨c, tail, hsource, isSpace_eq_false_of_number hc, ?_, ?_, fun _ => form, ?_⟩
    all_goals
    · rintro rfl
      exact absurd hc (by decide)
  | string string =>
    obtain ⟨tail, hsource, -⟩ := string.exists_body
    exact ⟨'"', tail, hsource, by decide, by decide, fun _ => ⟨_, string⟩,
      fun h => absurd h (by decide), fun h => absurd h (by decide)⟩
  | array lead _ =>
    exact ⟨'[', _, rfl, by decide, by decide, fun h => absurd h (by decide),
      fun h => absurd h (by decide), fun h => absurd h (by decide)⟩
  | @object members lead named each =>
    exact ⟨'{', _, rfl, by decide, by decide, fun h => absurd h (by decide),
      fun h => absurd h (by decide), fun _ => ⟨members, ⟨lead, rfl⟩, named, each⟩⟩

/-! ## Values are passed over -/

/-- A text is passed over up to its end, whatever white space is before it. -/
def Skipped (source : List Char) : Prop :=
  ∀ (fuel : Nat) (gap : Gap) (rest : List Char), 2 * source.length ≤ fuel → Ends rest →
    skipValue fuel (gap.chars ++ (source ++ rest)) = some rest

theorem skipped_word {word : String} (known : word ∈ ["null", "true", "false"]) :
    Skipped word.toList := by
  intro fuel gap rest hfuel _
  simp only [List.mem_cons, List.not_mem_nil, or_false] at known
  rcases known with rfl | rfl | rfl <;>
  · obtain ⟨fuel, rfl⟩ := Nat.exists_eq_succ_of_ne_zero (Nat.ne_zero_of_lt hfuel)
    simp [skipValue, skipSpace_gap, skipSpace_cons, keyword?, isSpace]

theorem skipped_number {source : List Char} (form : IsNumber source) : Skipped source := by
  intro fuel gap rest hfuel ends
  obtain ⟨c, tail, hsource, hc⟩ := form.head
  obtain ⟨fuel, rfl⟩ : ∃ n, fuel = n + 1 := by
    refine Nat.exists_eq_succ_of_ne_zero ?_
    rw [hsource, List.length_cons] at hfuel
    omega
  have hspace : isSpace c = false := isSpace_eq_false_of_number hc
  have hnumber : ∃ token, number? (source ++ rest) = some (token, rest) := by
    obtain ⟨sign, whole, hf, he⟩ := form
    exact ⟨_, number?_spelled sign whole hf he ends⟩
  obtain ⟨token, hnumber⟩ := hnumber
  rw [hsource, List.cons_append] at hnumber ⊢
  rw [skipValue, skipSpace_gap_cons gap hspace]
  -- the words, strings and brackets that are tried first start otherwise
  split <;> rename_i heq <;> cases heq
  iterate 6 exact absurd hc (by decide)
  simp [hnumber]

theorem skipped_string {source text : List Char} (string : StringOf source text) :
    Skipped source := by
  intro fuel gap rest hfuel _
  obtain ⟨tail, rfl, hread⟩ := string.exists_body
  obtain ⟨fuel, rfl⟩ := Nat.exists_eq_succ_of_ne_zero (Nat.ne_zero_of_lt hfuel)
  rw [skipValue, List.cons_append, skipSpace_gap_cons gap (by decide)]
  simp [hread]

/-- The elements of an array are passed over one after the other. -/
theorem skipElements_upcoming {items : List Spaced}
    (each : ∀ item ∈ items, ValueOf IsNumber item.source)
    (skipped : ∀ item ∈ items, Skipped item.source) :
    ∀ (fuel : Nat) (first : Bool) (gap : Gap) (rest : List Char),
      2 * ((items.map Spaced.text).flatMap (',' :: ·)).length < fuel →
      skipElements fuel first (upcoming first gap (items.map Spaced.text) (']' :: rest)) =
        some rest := by
  induction items with
  | nil =>
    intro fuel first gap rest hfuel
    obtain ⟨fuel, rfl⟩ := Nat.exists_eq_succ_of_ne_zero (Nat.ne_zero_of_lt hfuel)
    simp [skipElements, element?_upcoming_nil]
  | cons item items ih =>
    intro fuel first gap rest hfuel
    obtain ⟨fuel, rfl⟩ := Nat.exists_eq_succ_of_ne_zero (Nat.ne_zero_of_lt hfuel)
    rw [List.forall_mem_cons] at each skipped
    have hlength : (item.text).length =
        item.before.chars.length + item.source.length + item.after.chars.length := by
      simp [Spaced.text, Nat.add_assoc]
    simp only [List.map_cons, List.flatMap_cons, List.length_append, List.length_cons, hlength]
      at hfuel
    obtain ⟨c, tail, starts⟩ := each.1.opening
    have hitem := skipped.1 fuel Gap.none _ (by omega)
      (ends_upcoming (.inl rfl) item.after (items.map Spaced.text) rest)
    have hitems := ih each.2 skipped.2 fuel false item.after rest (by omega)
    rw [List.map_cons, skipElements, element?_upcoming starts.cons starts.visible starts.inside]
    simp only [Gap.none, List.nil_append] at hitem
    simp [hitem, hitems]

/-- The members of an object are passed over one after the other. -/
theorem skipMembers_upcoming {members : List MemberText}
    (named : ∀ m ∈ members, ∃ name, StringOf m.name.source name)
    (skipped : ∀ m ∈ members, Skipped m.value.source) :
    ∀ (fuel : Nat) (first : Bool) (gap : Gap) (rest : List Char),
      2 * ((members.map MemberText.text).flatMap (',' :: ·)).length < fuel →
      skipMembers fuel first (upcoming first gap (members.map MemberText.text) ('}' :: rest)) =
        some rest := by
  induction members with
  | nil =>
    intro fuel first gap rest hfuel
    obtain ⟨fuel, rfl⟩ := Nat.exists_eq_succ_of_ne_zero (Nat.ne_zero_of_lt hfuel)
    simp [skipMembers, member?_upcoming_nil]
  | cons m members ih =>
    intro fuel first gap rest hfuel
    obtain ⟨fuel, rfl⟩ := Nat.exists_eq_succ_of_ne_zero (Nat.ne_zero_of_lt hfuel)
    rw [List.forall_mem_cons] at named skipped
    have hlength : m.value.source.length ≤ m.text.length := by
      simp only [MemberText.text, Spaced.text, List.length_append, List.length_cons]
      omega
    simp only [List.map_cons, List.flatMap_cons, List.length_append, List.length_cons] at hfuel
    obtain ⟨name, hname⟩ := named.1
    have hvalue := skipped.1 fuel m.value.before _ (by omega)
      (ends_upcoming (.inr rfl) m.value.after (members.map MemberText.text) rest)
    have hmembers := ih named.2 skipped.2 fuel false m.value.after rest (by omega)
    rw [List.map_cons, skipMembers, member?_upcoming hname]
    simp [hvalue, hmembers]

/-- The commas of a row are in its brackets. -/
theorem length_flatMap_lt_row (opening closing : Char) (lead : Gap) (texts : List (List Char)) :
    (texts.flatMap (',' :: ·)).length < (row opening lead texts closing).length := by
  cases texts with
  | nil => simp [row]
  | cons text texts =>
    simp only [row, commas_cons, List.flatMap_cons, List.length_append, List.length_cons]
    omega

/-- **Values are passed over**, whatever they hold and however deep they are nested. -/
theorem skipped_valueOf {source : List Char} (h : ValueOf IsNumber source) : Skipped source := by
  induction h with
  | word known => exact skipped_word known
  | number form => exact skipped_number form
  | string string => exact skipped_string string
  | @array items lead each ih =>
    intro fuel gap rest hfuel _
    have hrow := length_flatMap_lt_row '[' ']' lead (items.map Spaced.text)
    obtain ⟨fuel, rfl⟩ := Nat.exists_eq_succ_of_ne_zero (Nat.ne_zero_of_lt (by omega : 0 < fuel))
    rw [row_append, skipValue, skipSpace_gap_cons gap (by decide)]
    exact skipElements_upcoming each ih fuel true lead rest (by omega)
  | @object members lead named each ih =>
    intro fuel gap rest hfuel _
    have hrow := length_flatMap_lt_row '{' '}' lead (members.map MemberText.text)
    obtain ⟨fuel, rfl⟩ := Nat.exists_eq_succ_of_ne_zero (Nat.ne_zero_of_lt (by omega : 0 < fuel))
    rw [row_append, skipValue, skipSpace_gap_cons gap (by decide)]
    exact skipMembers_upcoming named ih fuel true lead rest (by omega)

theorem skip_valueOf {source : List Char} (h : ValueOf IsNumber source) (gap : Gap)
    {rest : List Char} (ends : Ends rest) :
    skip (gap.chars ++ (source ++ rest)) = some rest := by
  refine skipped_valueOf h _ gap rest ?_ ends
  simp only [List.length_append]
  omega

end ShellTemplate.Json
