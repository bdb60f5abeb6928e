import ShellTemplate.Proofs.PlainNumbers

/-!
# The reader of templates decides the grammar

The scanner of `Template/Reader` goes through a template character by character, with look-ahead for
doubled braces, escapes and the ends of words. The grammar of `Template/Grammar` says which texts
are templates and of which parts, without a scanner. For each of its readers there is a `…_sound`
lemma (what is read is derived) and a `…_complete` lemma (what is derived is read, whatever
follows).

Principal result: `parse_eq_ok_iff_templateOf` — on templates whose runs of digits are not longer
than a position may be, the parts that are read are exactly those that are derived; there are never
two derivations with different parts; and a text that is no template is refused with a fault in that
very text.
-/

set_option autoImplicit false

namespace ShellTemplate.Template

open Text Number

/-! ## Ends of words -/

theorem atWordEnd_iff {rest : List Char} :
    atWordEnd rest = true ↔ ∀ c ∈ rest.head?, isBlank c = true := by
  cases rest <;> simp [atWordEnd]

/-! ## Quoted texts -/

theorem closeQuote_close (quote : Char) (read rest : List Char) :
    closeQuote quote read (quote :: rest) = some (read.reverse, rest) := by
  rw [closeQuote.eq_def]
  exact if_pos rfl

theorem closeQuote_plain {quote c : Char} (hc : c ≠ quote) (hq : ¬ (quote = '"' ∧ c = '\\'))
    (read rest : List Char) :
    closeQuote quote read (c :: rest) = closeQuote quote (c :: read) rest := by
  rw [closeQuote.eq_def]
  simp only [if_neg hc, if_neg hq]

theorem closeQuote_escape {d : Char} (hd : d = '"' ∨ d = '\\') (read rest : List Char) :
    closeQuote '"' read ('\\' :: d :: rest) = closeQuote '"' (d :: read) rest := by
  rw [closeQuote.eq_def]
  simp [hd]

theorem closeQuote_backslash {d : Char} (hd : ¬ (d = '"' ∨ d = '\\')) (read rest : List Char) :
    closeQuote '"' read ('\\' :: d :: rest) = closeQuote '"' ('\\' :: read) (d :: rest) := by
  rw [closeQuote.eq_def]
  simp [hd]

theorem closeQuote_apostrophe_sound {read cs text rest : List Char}
    (h : closeQuote '\'' read cs = some (text, rest)) :
    ∃ body, cs = body ++ '\'' :: rest ∧ '\'' ∉ body ∧ text = read.reverse ++ body := by
  induction cs generalizing read with
  | nil => simp [closeQuote] at h
  | cons c cs ih =>
    by_cases hc : c = '\''
    · subst hc
      rw [closeQuote_close] at h
      cases h
      exact ⟨[], rfl, List.not_mem_nil, by simp⟩
    · rw [closeQuote_plain hc (by simp)] at h
      obtain ⟨body, rfl, hfree, rfl⟩ := ih h
      refine ⟨c :: body, rfl, ?_, by simp⟩
      simpa [hfree] using Ne.symm hc

theorem closeQuote_apostrophe_complete {body : List Char} (hfree : '\'' ∉ body)
    (read rest : List Char) :
    closeQuote '\'' read (body ++ '\'' :: rest) = some (read.reverse ++ body, rest) := by
  induction body generalizing read with
  | nil => simp [closeQuote_close]
  | cons c body ih =>
    simp only [List.mem_cons, not_or] at hfree
    rw [List.cons_append, closeQuote_plain (Ne.symm hfree.1) (by simp), ih hfree.2]
    simp

theorem closeQuote_double_sound {read cs text rest : List Char}
    (h : closeQuote '"' read cs = some (text, rest)) :
    ∃ source body, cs = source ++ '"' :: rest ∧ DoubleQuotedOf source body ∧
      text = read.reverse ++ body := by
  fun_induction closeQuote '"' read cs with
  | case1 => cases h
  | case2 read rest' =>
    simp only [Option.some.injEq, Prod.mk.injEq] at h
    obtain ⟨rfl, rfl⟩ := h
    exact ⟨[], [], rfl, .nil, by simp⟩
  | case3 => cases h
  | case4 read c hc hq d rest' hd ih =>
    obtain ⟨source, body, rfl, hbody, rfl⟩ := ih h
    obtain ⟨-, rfl⟩ := hq
    exact ⟨'\\' :: d :: source, d :: body, rfl, .escape hd hbody, by simp⟩
  | case5 read c hc hq d rest' hd ih =>
    obtain ⟨source, body, hsource, hbody, rfl⟩ := ih h
    obtain ⟨-, rfl⟩ := hq
    rw [not_or] at hd
    -- the escape sign stands before a character that is neither the end nor escaped by it
    cases source with
    | nil => simp only [List.nil_append, List.cons.injEq] at hsource; exact absurd hsource.1 hd.1
    | cons e source =>
      simp only [List.cons_append, List.cons.injEq] at hsource
      obtain ⟨rfl, rfl⟩ := hsource
      exact ⟨'\\' :: d :: source, '\\' :: body, rfl, .backslash hd hbody, by simp⟩
  | case6 read c rest' hc hq ih =>
    obtain ⟨source, body, rfl, hbody, rfl⟩ := ih h
    have hother : c ≠ '\\' := fun he => hq ⟨rfl, he⟩
    exact ⟨c :: source, c :: body, rfl, .plain ⟨hc, hother⟩ hbody, by simp⟩

theorem closeQuote_double_complete {source body : List Char} (h : DoubleQuotedOf source body)
    (read rest : List Char) :
    closeQuote '"' read (source ++ '"' :: rest) = some (read.reverse ++ body, rest) := by
  induction h generalizing read with
  | nil => simp [closeQuote_close]
  | escape special _ ih =>
    rw [List.cons_append, List.cons_append, closeQuote_escape special, ih]
    simp
  | backslash other _ ih =>
    rw [List.cons_append, List.cons_append, closeQuote_backslash (not_or.2 other),
      ← List.cons_append, ih]
    simp
  | plain other _ ih =>
    rw [List.cons_append, closeQuote_plain other.1 (by simp [other.2]), ih]
    simp

/-! ## Bare words -/

theorem bareFrom_end {rest : List Char} (h : atWordEnd rest = true) (read : List Char) :
    bareFrom read rest = .done read.reverse rest := by
  cases rest with
  | nil => rw [bareFrom.eq_def]
  | cons c rest =>
    rw [bareFrom.eq_def]
    exact if_pos h

theorem bareFrom_brace {c : Char} (h : c = '{' ∨ c = '}') (read rest : List Char) :
    bareFrom read (c :: c :: rest) = bareFrom (c :: read) rest := by
  have hb : ¬ isBlank c = true := by rcases h with rfl | rfl <;> decide
  rw [bareFrom.eq_def]
  simp [hb, h]

theorem isPlain_iff {c : Char} :
    isPlain c = true ↔ isBlank c = false ∧ ¬ (c = '{' ∨ c = '}') ∧ ¬ (c = '\'' ∨ c = '"') := by
  simp [isPlain, and_assoc]

theorem bareFrom_plain {c : Char} (h : isPlain c = true) (read rest : List Char) :
    bareFrom read (c :: rest) = bareFrom (c :: read) rest := by
  obtain ⟨h1, h2, h3⟩ := isPlain_iff.1 h
  rw [bareFrom.eq_def]
  simp only [h1, h2, h3, Bool.false_eq_true, ↓reduceIte]

theorem bareFrom_sound {read cs text rest : List Char} (h : bareFrom read cs = .done text rest) :
    ∃ source body, cs = source ++ rest ∧ BareOf source body ∧ text = read.reverse ++ body ∧
      atWordEnd rest = true := by
  fun_induction bareFrom read cs with
  | case1 => cases h; exact ⟨[], [], rfl, .nil, by simp, rfl⟩
  | case2 read c rest' hb => cases h; exact ⟨[], [], rfl, .nil, by simp, hb⟩
  | case3 => cases h
  | case4 read c rest' hb hbrace ih =>
    obtain ⟨source, body, rfl, hbody, rfl, hend⟩ := ih h
    exact ⟨c :: c :: source, c :: body, rfl, .brace hbrace hbody, by simp, hend⟩
  | case5 => cases h
  | case6 => cases h
  | case7 read c rest' hb hbrace hquote ih =>
    obtain ⟨source, body, rfl, hbody, rfl, hend⟩ := ih h
    rw [not_or] at hbrace hquote
    have hplain : isPlain c = true := by simp [isPlain, hb, hbrace, hquote]
    exact ⟨c :: source, c :: body, rfl, .plain hplain hbody, by simp, hend⟩

theorem bareFrom_complete {source body : List Char} (h : BareOf source body) {rest : List Char}
    (hend : atWordEnd rest = true) (read : List Char) :
    bareFrom read (source ++ rest) = .done (read.reverse ++ body) rest := by
  induction h generalizing read with
  | nil => simp [bareFrom_end hend]
  | brace brace _ ih =>
    rw [List.cons_append, List.cons_append, bareFrom_brace brace, ih]
    simp
  | plain plain _ ih =>
    rw [List.cons_append, bareFrom_plain plain, ih]
    simp

/-! ## Placeholders -/

theorem marker_sound {mark : Char} {cs rest : List Char} {b : Bool}
    (h : marker mark cs = (b, rest)) : cs = (if b then [mark] else []) ++ rest := by
  unfold marker at h
  split at h
  · cases h; rfl
  · split at h
    · rename_i hc; cases h; simp [hc]
    · cases h; rfl

theorem marker_complete {mark : Char} {rest : List Char} (b : Bool) (h : rest.head? ≠ some mark) :
    marker mark ((if b then [mark] else []) ++ rest) = (b, rest) := by
  cases b with
  | true => simp [marker]
  | false =>
    cases rest with
    | nil => rfl
    | cons c rest =>
      have hc : c ≠ mark := fun he => h (by rw [he]; rfl)
      simp [marker, hc]

theorem not_isDigit_of_isNameStart {c : Char} (h : isNameStart c = true) : c.isDigit = false := by
  by_contra hd
  rw [Bool.not_eq_false] at hd
  simp only [isNameStart, Bool.or_eq_true, beq_iff_eq] at h
  rcases h with h | rfl
  · have halpha := toNat_of_isAlpha h
    have hdigit := toNat_of_isDigit hd
    omega
  · revert hd; decide

/-- A reference starts with a letter, an underscore or a digit. -/
theorem RefOf.head {name : List Char} {ref : Ref} (h : RefOf name ref) :
    ∃ c more, name = c :: more ∧ (isNameStart c = true ∨ c.isDigit = true) := by
  cases h with
  | name start _ => exact ⟨_, _, rfl, .inl start⟩
  | position digits =>
    obtain ⟨d, ds, rfl⟩ := List.exists_cons_of_ne_nil digits.1
    exact ⟨d, ds, rfl, .inr (digits.2 d List.mem_cons_self)⟩

/-- A reference does not start with a sign that stands before it. -/
theorem RefOf.head_ne {name : List Char} {ref : Ref} (h : RefOf name ref) (rest : List Char)
    {c : Char} (hc : c = '!' ∨ c = '*' ∨ c = '{') : (name ++ rest).head? ≠ some c := by
  obtain ⟨d, more, rfl, hd⟩ := h.head
  intro he
  cases he
  rcases hc with rfl | rfl | rfl <;> revert hd <;> decide

theorem refText_sound {cs name rest : List Char} (h : refText cs = (name, rest))
    (hne : name ≠ []) : cs = name ++ rest ∧ ∃ ref, RefOf name ref := by
  unfold refText at h
  split at h
  · cases h; exact absurd rfl hne
  · rename_i c tail
    split at h
    · rename_i start
      cases h
      refine ⟨by simp, _, .name start fun d hd => List.mem_takeWhile_imp hd⟩
    · split at h
      · rename_i digit
        cases h
        refine ⟨by simp, _, .position ⟨by simp, ?_⟩⟩
        intro d hd
        rcases List.mem_cons.1 hd with rfl | hd
        · exact digit
        · exact List.mem_takeWhile_imp hd
      · cases h; exact absurd rfl hne

theorem refText_complete {name : List Char} {ref : Ref} (h : RefOf name ref) (rest : List Char) :
    refText (name ++ '}' :: rest) = (name, '}' :: rest) := by
  cases h with
  | name start more =>
    have stop := @forall_head_cons Char isNameChar '}' false rfl rest
    simp [refText, start, takeWhile_run more stop, dropWhile_run more stop]
  | position digits =>
    obtain ⟨d, ds, rfl⟩ := List.exists_cons_of_ne_nil digits.1
    have hd := digits.2 d List.mem_cons_self
    have hname : isNameStart d = false := by
      by_contra hs
      rw [Bool.not_eq_false] at hs
      rw [not_isDigit_of_isNameStart hs] at hd
      cases hd
    have hds : ∀ x ∈ ds, x.isDigit = true := fun x hx => digits.2 x (List.mem_cons_of_mem _ hx)
    have stop := @forall_head_cons Char Char.isDigit '}' false rfl rest
    simp [refText, hname, hd, takeWhile_run hds stop, dropWhile_run hds stop]

theorem placeholder?_sound {cs name rest : List Char} {verbatim list : Bool}
    (h : placeholder? cs = some (verbatim, list, name, rest)) :
    cs = markers verbatim list ++ name ++ '}' :: rest ∧ ∃ ref, RefOf name ref := by
  rcases h1 : marker '!' cs with ⟨v, cs1⟩
  rcases h2 : marker '*' cs1 with ⟨l, cs2⟩
  simp only [placeholder?, h1, h2] at h
  split at h
  · cases h
  · rename_i name' rest' hname hread
    cases h
    obtain ⟨hcs, href⟩ := refText_sound hread (by simpa using hname)
    refine ⟨?_, href⟩
    rw [marker_sound h1, marker_sound h2, hcs, markers]
    simp only [List.append_assoc]
  · cases h

theorem placeholder?_complete {name : List Char} {ref : Ref} (h : RefOf name ref)
    (verbatim list : Bool) (rest : List Char) :
    placeholder? (markers verbatim list ++ name ++ '}' :: rest) =
      some (verbatim, list, name, rest) := by
  have hstar : (name ++ '}' :: rest).head? ≠ some '*' := h.head_ne _ (.inr (.inl rfl))
  have hbang : ((if list then ['*'] else []) ++ (name ++ '}' :: rest)).head? ≠ some '!' := by
    cases list with
    | true => simp
    | false => exact h.head_ne _ (.inl rfl)
  obtain ⟨c, more, hcons, -⟩ := h.head
  have hread := refText_complete h rest
  simp only [markers, List.append_assoc, placeholder?, marker_complete verbatim hbang,
    marker_complete list hstar, hread]
  subst hcons
  rfl

/-- What a written reference is read as: itself, unless it is a position with too many digits. -/
theorem refOfText_of_refOf {name : List Char} {ref : Ref} (h : RefOf name ref) :
    refOfText name = .ok ref ∨ IsDigits name ∧ maxDigits < name.length ∧
      refOfText name = .error (.longPosition name.length) := by
  cases h with
  | @name c rest start more =>
    left
    simp [refOfText, not_isDigit_of_isNameStart start]
  | position digits =>
    have hall : name.all Char.isDigit = true := List.all_eq_true.2 digits.2
    by_cases hlong : maxDigits < name.length
    · right
      exact ⟨digits, hlong, by simp only [refOfText, hall, hlong, ↓reduceIte]⟩
    · left
      simp only [refOfText, hall, hlong, ↓reduceIte]

/-! ## Words -/

/-- Which reader a word is for is decided by its first character, and by the second one behind an
opening brace. -/
theorem word_cons (c : Char) (rest : List Char) :
    word (c :: rest) =
      if c = '{' ∧ rest.head? ≠ some '{' then placeholderWord (c :: rest) rest
      else if c = '\'' ∨ c = '"' then quotedWord (c :: rest)
      else bareWord (c :: rest) := by
  have hopens : opensPlaceholder (c :: rest) = decide (c = '{' ∧ rest.head? ≠ some '{') := by
    by_cases hc : c = '{'
    · subst hc
      rw [Bool.eq_iff_iff]
      cases rest <;> simp [opensPlaceholder]
    · simp [opensPlaceholder, hc]
  simp only [word, hopens, decide_eq_true_eq]

theorem placeholderWord_sound {cs rest : List Char} {part : Part}
    (h : placeholderWord ('{' :: cs) cs = .done part rest) :
    ∃ source, '{' :: cs = source ++ rest ∧ WordOf source part ∧ atWordEnd rest = true := by
  unfold placeholderWord at h
  split at h
  · cases h
  · rename_i verbatim list name tail hread
    split at h
    · rename_i hend
      obtain ⟨rfl, ref, href⟩ := placeholder?_sound hread
      rcases refOfText_of_refOf href with hok | ⟨-, -, hlong⟩
      · rw [hok] at h
        cases h
        exact ⟨_, by simp, .placeholder verbatim list href, hend⟩
      · rw [hlong] at h
        cases h
    · cases h

theorem quotedWord_sound {quote : Char} {cs rest : List Char} {part : Part}
    (hq : quote = '\'' ∨ quote = '"') (h : quotedWord (quote :: cs) = .done part rest) :
    ∃ source, quote :: cs = source ++ rest ∧ WordOf source part ∧ atWordEnd rest = true := by
  simp only [quotedWord, quoted] at h
  cases hclose : closeQuote quote [] cs with
  | none =>
    rw [hclose] at h
    cases h
  | some closed =>
    obtain ⟨text, tail⟩ := closed
    simp only [hclose] at h
    split at h
    · rename_i hend
      cases h
      rcases hq with rfl | rfl
      · obtain ⟨body, rfl, hfree, rfl⟩ := closeQuote_apostrophe_sound hclose
        exact ⟨_, by simp, .apostrophes hfree, hend⟩
      · obtain ⟨source, body, rfl, hbody, rfl⟩ := closeQuote_double_sound hclose
        exact ⟨_, by simp, .doubleQuotes hbody, hend⟩
    · cases h

theorem atomOfWord_number {text : List Char} (h : LooksLikeNumber text) :
    atomOfWord text =
      if isNumeral (String.ofList text) then .ok (.number (String.ofList text))
      else .error (.badNumber (String.ofList text)) := by
  rw [atomOfWord, if_pos (isNumber_iff.2 h), Atom.number?]
  by_cases hn : isNumeral (String.ofList text) = true
  · simp only [hn, ↓reduceIte]
  · simp only [hn, Bool.false_eq_true, ↓reduceIte]

theorem atomOfWord_identifier {text : List Char} (h : ¬ LooksLikeNumber text) :
    atomOfWord text = .ok (.identifier (String.ofList text)) := by
  rw [atomOfWord, if_neg (mt isNumber_iff.1 h)]

/-- An atom that a bare word is read as is the one that the grammar says. -/
theorem wordOf_bare {source text : List Char} {atom : Atom} (h : BareOf source text)
    (hne : source ≠ []) (hatom : atomOfWord text = .ok atom) : WordOf source (.literal atom) := by
  by_cases hnum : LooksLikeNumber text
  · rw [atomOfWord_number hnum] at hatom
    split at hatom
    · cases hatom; exact .number h hnum
    · cases hatom
  · rw [atomOfWord_identifier hnum] at hatom
    cases hatom
    exact .identifier h hne hnum

theorem bareWord_sound {c : Char} {cs rest : List Char} {part : Part}
    (solid : isBlank c = false) (h : bareWord (c :: cs) = .done part rest) :
    ∃ source, c :: cs = source ++ rest ∧ WordOf source part ∧ atWordEnd rest = true := by
  simp only [bareWord, bare] at h
  cases hread : bareFrom [] (c :: cs) with
  | failed fault tail =>
    rw [hread] at h
    cases h
  | done text tail =>
    obtain ⟨source, body, hcs, hbody, rfl, hend⟩ := bareFrom_sound hread
    simp only [hread] at h
    have hne : source ≠ [] := by
      rintro rfl
      rw [List.nil_append] at hcs
      rw [← hcs, atWordEnd, solid] at hend
      cases hend
    split at h
    · rename_i atom hatom
      cases h
      exact ⟨source, hcs, wordOf_bare hbody hne hatom, hend⟩
    · cases h

/-- **What is read as a word is derived as one.** -/
theorem word_sound {c : Char} {cs rest : List Char} {part : Part} (solid : isBlank c = false)
    (h : word (c :: cs) = .done part rest) :
    ∃ source, c :: cs = source ++ rest ∧ WordOf source part ∧ atWordEnd rest = true := by
  rw [word_cons] at h
  split at h
  · rename_i hopen
    obtain ⟨rfl, -⟩ := hopen
    exact placeholderWord_sound h
  · split at h
    · rename_i hquote
      exact quotedWord_sound hquote h
    · exact bareWord_sound solid h

/-- A bare text without braces is written as it is. -/
theorem BareOf.eq_of_no_brace {source text : List Char} (h : BareOf source text)
    (hb : ∀ c ∈ text, ¬ (c = '{' ∨ c = '}')) : source = text := by
  induction h with
  | nil => rfl
  | brace brace _ _ => exact absurd brace (hb _ List.mem_cons_self)
  | plain _ _ ih => rw [ih fun c hc => hb c (List.mem_cons_of_mem _ hc)]

/-- Plain characters mean themselves. -/
theorem bareOf_self {cs : List Char} (h : ∀ c ∈ cs, isPlain c = true) : BareOf cs cs := by
  induction cs with
  | nil => exact .nil
  | cons c cs ih =>
    rw [List.forall_mem_cons] at h
    exact .plain h.1 (ih h.2)

theorem LooksLikeNumber.isPlain {text : List Char} (h : LooksLikeNumber text) :
    ∀ c ∈ text, isPlain c = true := by
  intro c hc
  refine isPlain_iff.2 ⟨(isNumberChar_ascii (h.isNumberChar hc)).2, ?_⟩
  rcases h.chars c hc with hd | rfl | rfl
  · constructor
    · rintro (rfl | rfl) <;> exact absurd hd (by decide)
    · rintro (rfl | rfl) <;> exact absurd hd (by decide)
  · decide
  · decide

/-- A number has no braces to be doubled. -/
theorem bareOf_number {cs : List Char} (h : LooksLikeNumber cs) : BareOf cs cs :=
  bareOf_self h.isPlain

theorem LooksLikeNumber.no_brace {text : List Char} (h : LooksLikeNumber text) :
    ∀ c ∈ text, ¬ (c = '{' ∨ c = '}') :=
  fun c hc => (isPlain_iff.1 (h.isPlain c hc)).2.1

theorem LooksLikeNumber.ne_nil {text : List Char} (h : LooksLikeNumber text) : text ≠ [] := by
  obtain ⟨minus, body, -, hb, rfl⟩ := looksLikeNumber_iff.1 h
  obtain ⟨d, rest, rfl, -⟩ := hb.head
  simp

/-- A bare word is read by the reader of bare words. -/
theorem word_eq_bareWord {source text : List Char} (h : BareOf source text) (hne : source ≠ [])
    (rest : List Char) : word (source ++ rest) = bareWord (source ++ rest) := by
  cases h with
  | nil => exact absurd rfl hne
  | @brace c _ _ brace _ =>
    rw [List.cons_append, List.cons_append, word_cons]
    rcases brace with rfl | rfl <;> simp
  | plain plain _ =>
    obtain ⟨-, hbrace, hquote⟩ := isPlain_iff.1 plain
    rw [not_or] at hbrace
    rw [List.cons_append, word_cons, if_neg (by simp [hbrace.1]), if_neg hquote]

section Forms

variable {source text rest : List Char}

/-- A bare word is read as the atom of its text. -/
theorem word_bare (h : BareOf source text) (hne : source ≠ []) (hend : atWordEnd rest = true) :
    word (source ++ rest) =
      match atomOfWord text with
      | .ok atom => .done (.literal atom) rest
      | .error fault => .failed fault rest := by
  rw [word_eq_bareWord h hne, bareWord, bare, bareFrom_complete h hend]
  rfl

theorem word_apostrophes (free : '\'' ∉ text) (hend : atWordEnd rest = true) :
    word ('\'' :: (text ++ ['\'']) ++ rest) =
      .done (.literal (.text (String.ofList text))) rest := by
  have hclose := closeQuote_apostrophe_complete free [] rest
  simp [word_cons, quotedWord, quoted, hclose, hend]

theorem word_doubleQuotes (inside : DoubleQuotedOf source text) (hend : atWordEnd rest = true) :
    word ('"' :: (source ++ ['"']) ++ rest) =
      .done (.literal (.text (String.ofList text))) rest := by
  have hclose := closeQuote_double_complete inside [] rest
  simp [word_cons, quotedWord, quoted, hclose, hend]

/-- A placeholder is read as the reference between its braces. -/
theorem word_placeholder {name : List Char} {ref : Ref} (named : RefOf name ref)
    (verbatim list : Bool) (hend : atWordEnd rest = true) :
    word ('{' :: (markers verbatim list ++ name ++ ['}']) ++ rest) =
      match refOfText name with
      | .ok ref => .done (.placeholder ⟨verbatim, list, ref⟩) rest
      | .error fault => .failed fault rest := by
  have hopen : (markers verbatim list ++ name ++ '}' :: rest).head? ≠ some '{' := by
    simp only [markers, List.append_assoc]
    cases verbatim with
    | true => simp
    | false =>
      cases list with
      | true => simp
      | false => exact named.head_ne _ (.inr (.inr rfl))
  have hread := placeholder?_complete named verbatim list rest
  have hcs : '{' :: (markers verbatim list ++ name ++ ['}']) ++ rest =
      '{' :: (markers verbatim list ++ name ++ '}' :: rest) := by simp
  rw [hcs, word_cons, if_pos ⟨rfl, hopen⟩, placeholderWord, hread]
  exact if_pos hend

end Forms

/-- **What is derived as a word is read as one**, whatever follows behind a word end. -/
theorem word_complete {source rest : List Char} {part : Part} (h : WordOf source part)
    (hend : atWordEnd rest = true) (short : ShortRuns source) :
    word (source ++ rest) = .done part rest := by
  cases h with
  | @placeholder name ref verbatim list named =>
    have hok : refOfText name = .ok ref := by
      refine (refOfText_of_refOf named).resolve_right ?_
      rintro ⟨digits, hlong, -⟩
      have := short name ⟨'{' :: markers verbatim list, ['}'], by simp⟩ digits.2
      omega
    rw [word_placeholder named verbatim list hend, hok]
  | apostrophes free => exact word_apostrophes free hend
  | doubleQuotes inside => exact word_doubleQuotes inside hend
  | @number _ text bare number =>
    have hsource : source = text := bare.eq_of_no_brace number.no_brace
    subst hsource
    rw [word_bare bare number.ne_nil hend, atomOfWord_number number,
      if_pos (isNumeral_of_looksLikeNumber number short)]
  | identifier bare some other =>
    rw [word_bare bare some hend, atomOfWord_identifier other]

/-- A word starts with a character that is not blank. -/
theorem WordOf.head {source : List Char} {part : Part} (h : WordOf source part) :
    ∃ c tail, source = c :: tail ∧ isBlank c = false := by
  have hbare : ∀ {source text}, BareOf source text → source ≠ [] →
      ∃ c tail, source = c :: tail ∧ isBlank c = false := by
    intro source text hb hne
    cases hb with
    | nil => exact absurd rfl hne
    | brace brace _ => exact ⟨_, _, rfl, by rcases brace with rfl | rfl <;> decide⟩
    | plain plain _ => exact ⟨_, _, rfl, (isPlain_iff.1 plain).1⟩
  cases h with
  | placeholder | apostrophes | doubleQuotes => exact ⟨_, _, rfl, by decide⟩
  | number bare number =>
    have hsource := bare.eq_of_no_brace number.no_brace
    exact hbare bare (hsource ▸ number.ne_nil)
  | identifier bare some _ => exact hbare bare some

/-! ## Faults -/

theorem bareFrom_fault {read cs rest : List Char} {fault : Fault}
    (h : bareFrom read cs = .failed fault rest) : ∃ f site, fault = .broken f site := by
  fun_induction bareFrom read cs with
  | case1 => cases h
  | case2 => cases h
  | case3 => cases h; exact ⟨_, _, rfl⟩
  | case4 _ _ _ _ _ ih => exact ih h
  | case5 => cases h; exact ⟨_, _, rfl⟩
  | case6 => cases h; exact ⟨_, _, rfl⟩
  | case7 _ _ _ _ _ _ ih => exact ih h

theorem quotedWord_fault {quote : Char} {cs rest : List Char} {fault : Fault}
    (h : quotedWord (quote :: cs) = .failed fault rest) : ∃ f site, fault = .broken f site := by
  simp only [quotedWord, quoted] at h
  cases hclose : closeQuote quote [] cs with
  | none =>
    simp only [hclose] at h
    cases h
    exact ⟨_, _, rfl⟩
  | some closed =>
    simp only [hclose] at h
    split at h
    · cases h
    · cases h; exact ⟨_, _, rfl⟩

/-- Why the first word of a text is refused: it breaks a rule, it is a placeholder whose position
has too many digits, or it is a number outside the limits. -/
inductive Refusal : List Char → Fault → List Char → Prop where
  | broken (cs rest : List Char) (f : SyntaxFault) (site : List Char) :
    Refusal cs (.broken f site) rest
  | position {ds rest : List Char} (verbatim list : Bool) (digits : IsDigits ds)
    (long : maxDigits < ds.length) (hend : atWordEnd rest = true) :
    Refusal ('{' :: (markers verbatim list ++ ds ++ ['}']) ++ rest) (.longPosition ds.length) rest
  | number {text rest : List Char} (number : LooksLikeNumber text)
    (outside : isNumeral (String.ofList text) = false) (hend : atWordEnd rest = true) :
    Refusal (text ++ rest) (.badNumber (String.ofList text)) rest

theorem placeholderWord_refusal {cs rest : List Char} {fault : Fault}
    (h : placeholderWord ('{' :: cs) cs = .failed fault rest) :
    Refusal ('{' :: cs) fault rest := by
  unfold placeholderWord at h
  split at h
  · cases h
    exact .broken ..
  · rename_i verbatim list name tail hread
    split at h
    · rename_i hend
      obtain ⟨rfl, ref, href⟩ := placeholder?_sound hread
      rcases refOfText_of_refOf href with hok | ⟨digits, hlong, herror⟩
      · rw [hok] at h
        cases h
      · rw [herror] at h
        cases h
        have hposition := Refusal.position verbatim list digits hlong hend
        simpa using hposition
    · cases h
      exact .broken ..

theorem bareWord_refusal {cs rest : List Char} {fault : Fault}
    (h : bareWord cs = .failed fault rest) : Refusal cs fault rest := by
  simp only [bareWord, bare] at h
  cases hread : bareFrom [] cs with
  | failed fault' tail =>
    simp only [hread] at h
    cases h
    obtain ⟨f, site, rfl⟩ := bareFrom_fault hread
    exact .broken ..
  | done text tail =>
    obtain ⟨source, _, rfl, hbody, rfl, hend⟩ := bareFrom_sound hread
    simp only [hread] at h
    by_cases hnum : LooksLikeNumber text
    · have hsource : source = text := hbody.eq_of_no_brace hnum.no_brace
      subst hsource
      rw [atomOfWord_number hnum] at h
      split_ifs at h with hnumeral
      cases h
      exact .number hnum (Bool.not_eq_true _ ▸ hnumeral) hend
    · rw [atomOfWord_identifier hnum] at h
      cases h

/-- There are no other reasons to refuse a word. -/
theorem word_refusal {c : Char} {cs rest : List Char} {fault : Fault}
    (h : word (c :: cs) = .failed fault rest) : Refusal (c :: cs) fault rest := by
  rw [word_cons] at h
  split at h
  · rename_i hopen
    obtain ⟨rfl, -⟩ := hopen
    exact placeholderWord_refusal h
  · split at h
    · obtain ⟨f, site, rfl⟩ := quotedWord_fault h
      exact .broken ..
    · exact bareWord_refusal h

/-- With short runs of digits a word is refused only for breaking a rule. -/
theorem word_fault {c : Char} {cs rest : List Char} {fault : Fault} (short : ShortRuns (c :: cs))
    (h : word (c :: cs) = .failed fault rest) : ∃ f site, fault = .broken f site := by
  have hrefusal := word_refusal h
  generalize c :: cs = source at short hrefusal
  cases hrefusal with
  | broken _ _ f site => exact ⟨f, site, rfl⟩
  | @position ds _ verbatim list digits long hend =>
    have hds := short ds ⟨'{' :: markers verbatim list, '}' :: rest, by simp⟩ digits.2
    omega
  | @number text _ number outside hend =>
    have hok := isNumeral_of_looksLikeNumber number (short.mono ⟨[], rest, rfl⟩)
    rw [hok] at outside
    cases outside

/-! ## Templates -/

theorem skipBlanks_gap {gap rest : List Char} (hgap : ∀ c ∈ gap, isBlank c = true)
    (hrest : ∀ c ∈ rest.head?, isBlank c = false) : skipBlanks (gap ++ rest) = rest :=
  dropWhile_run hgap hrest

theorem exists_gap (cs : List Char) :
    ∃ gap, (∀ c ∈ gap, isBlank c = true) ∧ cs = gap ++ skipBlanks cs :=
  ⟨cs.takeWhile isBlank, fun _ hc => List.mem_takeWhile_imp hc,
    List.takeWhile_append_dropWhile.symm⟩

theorem readParts_end {read : List Part} {cs : List Char} (h : skipBlanks cs = []) :
    readParts read cs = .done read.reverse [] := by
  rw [readParts.eq_def]
  split
  · rfl
  · rename_i hcons; rw [h] at hcons; cases hcons

theorem readParts_word {read : List Part} {cs rest rest' : List Char} {c : Char} {part : Part}
    (h : skipBlanks cs = c :: rest) (hw : word (c :: rest) = .done part rest') :
    readParts read cs = readParts (part :: read) rest' := by
  rw [readParts.eq_def]
  split
  · rename_i hnil; rw [h] at hnil; cases hnil
  · rename_i d tail hcons
    rw [h] at hcons
    cases hcons
    split
    · rename_i hfail; rw [hw] at hfail; cases hfail
    · rename_i hdone; rw [hw] at hdone; cases hdone; rfl

theorem readParts_sound {read parts : List Part} {cs rest : List Char}
    (h : readParts read cs = .done parts rest) :
    ∃ ps, TemplateOf cs ps ∧ parts = read.reverse ++ ps := by
  fun_induction readParts read cs with
  | case1 read cs hskip =>
    cases h
    obtain ⟨gap, hgap, hcs⟩ := exists_gap cs
    rw [hskip, List.append_nil] at hcs
    exact ⟨[], .nil (hcs ▸ hgap), by simp⟩
  | case2 => cases h
  | case3 read cs c tail hskip part rest' hword ih =>
    obtain ⟨ps, hps, rfl⟩ := ih h
    obtain ⟨gap, hgap, hcs⟩ := exists_gap cs
    obtain ⟨source, hsource, hw, hend⟩ := word_sound (not_isBlank_of_skipBlanks hskip) hword
    rw [hskip, hsource, ← List.append_assoc] at hcs
    rw [hcs]
    exact ⟨part :: ps, .cons hgap hw (atWordEnd_iff.1 hend) hps, by simp⟩

theorem readParts_complete {cs : List Char} {ps : List Part} (h : TemplateOf cs ps)
    (short : ShortRuns cs) (read : List Part) :
    readParts read cs = .done (read.reverse ++ ps) [] := by
  induction h generalizing read with
  | nil blank =>
    have hskip : skipBlanks _ = [] := dropWhile_all blank
    simp [readParts_end hskip]
  | @cons gap source rest part parts blank hw apart _ ih =>
    obtain ⟨c, tail, hsource, solid⟩ := hw.head
    have hskip : skipBlanks (gap ++ source ++ rest) = c :: (tail ++ rest) := by
      rw [List.append_assoc, hsource]
      exact skipBlanks_gap blank (forall_head_cons solid _)
    have hword : word (c :: (tail ++ rest)) = .done part rest := by
      have := word_complete hw (atWordEnd_iff.2 apart) (short.mono ⟨gap, rest, rfl⟩)
      rwa [hsource] at this
    rw [readParts_word hskip hword, ih (short.mono ⟨gap ++ source, [], by simp⟩)]
    simp

theorem readParts_fault {read : List Part} {cs rest : List Char} {fault : Fault}
    (short : ShortRuns cs) (h : readParts read cs = .failed fault rest) :
    ∃ f site, fault = .broken f site := by
  have hskip : ∀ {cs c tail}, skipBlanks cs = c :: tail → (c :: tail) <:+: cs := by
    intro cs c tail hcs
    rw [← hcs]
    exact (List.dropWhile_suffix isBlank).isInfix
  fun_induction readParts read cs with
  | case1 => cases h
  | case2 read cs c tail hcs fault' rest' hword =>
    cases h
    exact word_fault (short.mono (hskip hcs)) hword
  | case3 read cs c tail hcs part rest' hword ih =>
    obtain ⟨source, hsource, -, -⟩ := word_sound (not_isBlank_of_skipBlanks hcs) hword
    have hrest : rest' <:+: c :: tail := ⟨source, [], by simp [hsource]⟩
    exact ih (short.mono (hrest.trans (hskip hcs))) h

theorem parse_eq_ok_iff {t : String} {parts : List Part} :
    parse t = .ok parts ↔ ∃ rest, readParts [] t.toList = .done parts rest := by
  simp only [parse]
  cases readParts [] t.toList with
  | done parts' rest =>
    constructor
    · intro h
      cases h
      exact ⟨rest, rfl⟩
    · rintro ⟨rest', h⟩
      cases h
      rfl
  | failed fault rest => simp

theorem parse_eq_error_iff {t : String} {e : Error} :
    parse t = .error e ↔
      ∃ fault rest, readParts [] t.toList = .failed fault rest ∧ e = fault.toError t.toList := by
  simp only [parse]
  cases readParts [] t.toList with
  | done parts rest => simp
  | failed fault rest =>
    constructor
    · intro h
      cases h
      exact ⟨fault, rest, rfl, rfl⟩
    · rintro ⟨fault', rest', h, rfl⟩
      cases h
      rfl

/-- **Templates are read exactly as they are derived.** With short runs of digits, the parts that
are read are those of a derivation; all derivations agree on the parts; and where there is no
derivation the text is refused, at a column, for breaking a rule. -/
theorem parse_eq_ok_iff_templateOf {t : String} (short : ShortRuns t.toList) :
    (∀ parts, parse t = .ok parts ↔ TemplateOf t.toList parts) ∧
      (∀ ps qs, TemplateOf t.toList ps → TemplateOf t.toList qs → ps = qs) ∧
      ((¬ ∃ parts, TemplateOf t.toList parts) →
        ∃ fault column, parse t = .error (.templateFault fault t (some column))) := by
  have complete : ∀ parts, TemplateOf t.toList parts → parse t = .ok parts := by
    intro parts h
    simp [parse, readParts_complete h short []]
  have sound : ∀ parts, parse t = .ok parts → TemplateOf t.toList parts := by
    intro parts h
    simp only [parse] at h
    split at h
    · rename_i parts' rest hread
      cases h
      obtain ⟨ps, hps, rfl⟩ := readParts_sound hread
      exact hps
    · cases h
  refine ⟨fun parts => ⟨sound parts, complete parts⟩, fun ps qs hps hqs => ?_, fun hnone => ?_⟩
  · exact Except.ok.inj ((complete ps hps).symm.trans (complete qs hqs))
  · cases hread : readParts [] t.toList with
    | done parts rest =>
      have hok : parse t = .ok parts := by simp [parse, hread]
      exact absurd ⟨parts, sound parts hok⟩ hnone
    | failed fault rest =>
      obtain ⟨f, site, rfl⟩ := readParts_fault short hread
      refine ⟨f, t.toList.length - site.length, ?_⟩
      simp [parse, hread, Fault.toError]

/-- A template with a word of each form: doubled braces, escapes, leading zeros. -/
def everyWord : String := " \x7b!*xs\x7d\t\"a\\\"b\\c\" ' \\' \x7b\x7bn \x7b007\x7d -1.5 "

/-- Its parts. -/
def everyWordParts : List Part :=
  [.placeholder ⟨true, true, .name "xs"⟩, .literal (.text "a\"b\\c"), .literal (.text " \\"),
    .literal (.identifier "\x7bn"), .placeholder ⟨false, false, .position 7⟩,
    .literal (.number "-1.5")]

theorem TemplateOf.between {b d : Char} {source rest : List Char} {part : Part} {parts : List Part}
    (hb : isBlank b = true) (hd : isBlank d = true) (word : WordOf source part)
    (more : TemplateOf (d :: rest) parts) :
    TemplateOf (b :: (source ++ d :: rest)) (part :: parts) := by
  have blank : ∀ c ∈ [b], isBlank c = true := fun c hc => List.mem_singleton.1 hc ▸ hb
  exact .cons blank word (forall_head_cons hd rest) more

theorem templateOf_everyWord : TemplateOf everyWord.toList everyWordParts := by
  have hlist : WordOf "\x7b!*xs\x7d".toList (.placeholder ⟨true, true, .name "xs"⟩) :=
    .placeholder true true (@RefOf.name 'x' ['s'] (by decide) (List.all_eq_true.1 (by decide)))
  have htext : WordOf "\"a\\\"b\\c\"".toList (.literal (.text "a\"b\\c")) :=
    .doubleQuotes (.plain (by decide) (.escape (by decide) (.plain (by decide)
      (.backslash (by decide) (.plain (by decide) .nil)))))
  have hquoted : WordOf "' \\'".toList (.literal (.text " \\")) :=
    @WordOf.apostrophes [' ', '\\'] (by decide)
  have hname : WordOf "\x7b\x7bn".toList (.literal (.identifier "\x7bn")) :=
    .identifier (.brace (by decide) (.plain (by decide) .nil)) (by decide)
      (by rw [← isNumber_iff]; decide)
  have hposition : WordOf "\x7b007\x7d".toList (.placeholder ⟨false, false, .position 7⟩) :=
    .placeholder false false (@RefOf.position ['0', '0', '7']
      ⟨by decide, List.all_eq_true.1 (by decide)⟩)
  have hnumber : WordOf "-1.5".toList (.literal (.number "-1.5")) :=
    .number (.plain (by decide) (.plain (by decide) (.plain (by decide) (.plain (by decide) .nil))))
      (isNumber_iff.1 (by decide))
  have hgap : TemplateOf [' '] [] := .nil (List.all_eq_true.1 (by decide))
  have hs : isBlank ' ' = true := rfl
  have ht : isBlank '\t' = true := rfl
  have h5 := TemplateOf.between hs hs hnumber hgap
  have h4 := TemplateOf.between hs hs hposition h5
  have h3 := TemplateOf.between hs hs hname h4
  have h2 := TemplateOf.between hs hs hquoted h3
  have h1 := TemplateOf.between ht hs htext h2
  exact TemplateOf.between hs ht hlist h1

theorem parse_everyWord :
    ShortRuns everyWord.toList ∧ parse everyWord = .ok everyWordParts ∧
      ∀ qs, TemplateOf everyWord.toList qs → qs = everyWordParts := by
  have short : ShortRuns everyWord.toList := fun ds h _ => le_trans h.length_le (by decide)
  obtain ⟨derived, unique, -⟩ := parse_eq_ok_iff_templateOf short
  exact ⟨short, (derived everyWordParts).2 templateOf_everyWord,
    fun qs hqs => unique qs everyWordParts hqs templateOf_everyWord⟩

end ShellTemplate.Template
