import ShellTemplate.Proofs.TemplateComposition
import ShellTemplate.Template.Printer

/-!
# Which parts templates have

Not every list of parts is that of a template: the short form has no way to write a name with a
blank in it, or a number with an exponent. `Expressible` says which parts it can write, without the
reader and the writer, and these are exactly the parts that are ever read.

* `expressible_iff` — the writer's test for such parts decides them.
* `WordOf.expressible` — a word that was read stands for such a part.
* `wordOf_wordSource`, `word_wordSource` — such a part is written as a word that is read as it.
* `exists_parse_eq_iff_expressible` — the lists of parts of templates are the lists of such parts,
  and what is written for them is a template of them.
-/

set_option autoImplicit false

namespace ShellTemplate.Template

open Text Number

/-! ## Parts with a short form -/

/-- What a name between braces looks like: an ASCII letter or underscore, and then such characters
or digits. -/
def IsName (cs : List Char) : Prop :=
  ∃ c rest, cs = c :: rest ∧ isNameStart c = true ∧ ∀ d ∈ rest, isNameChar d = true

/-- The references that a placeholder can be written with: an ASCII name, or a position with no more
digits than are read. -/
inductive ExpressibleRef : Ref → Prop where
  | name {s : String} (name : IsName s.toList) : ExpressibleRef (.name s)
  | position {n : Nat} (short : (digits n).length ≤ maxDigits) : ExpressibleRef (.position n)

/-- The parts that the short form can write. -/
inductive Expressible : Part → Prop where
  | text (s : String) : Expressible (.literal (.text s))
  | number {s : String} (number : LooksLikeNumber s.toList) : Expressible (.literal (.number s))
  | identifier {s : String} (some : s ≠ "")
    (solid : ∀ c ∈ s.toList, isBlank c = false ∧ c ≠ '\'' ∧ c ≠ '"')
    (other : ¬ LooksLikeNumber s.toList) : Expressible (.literal (.identifier s))
  | placeholder (verbatim list : Bool) {ref : Ref} (named : ExpressibleRef ref) :
    Expressible (.placeholder ⟨verbatim, list, ref⟩)

theorem expressibleRef_iff {ref : Ref} : isExpressibleRef ref = true ↔ ExpressibleRef ref := by
  cases ref with
  | name s =>
    have hname : isExpressibleRef (.name s) = true ↔ IsName s.toList := by
      cases hs : s.toList with
      | nil => simp [isExpressibleRef, IsName, hs]
      | cons c rest => simp [isExpressibleRef, IsName, hs]
    rw [hname]
    exact ⟨.name, fun h => by cases h; assumption⟩
  | position n =>
    rw [isExpressibleRef, decide_eq_true_eq]
    exact ⟨.position, fun h => by cases h; assumption⟩

/-- **The writer's test decides which parts have a short form.** -/
theorem expressible_iff {part : Part} : isExpressible part = true ↔ Expressible part := by
  cases part with
  | literal a =>
    cases a with
    | text s => exact ⟨fun _ => .text s, fun _ => rfl⟩
    | number s =>
      have hnumber : isExpressible (.literal (.number s)) = true ↔ LooksLikeNumber s.toList :=
        isNumber_iff
      rw [hnumber]
      exact ⟨.number, fun h => by cases h; assumption⟩
    | identifier s =>
      have hname : isExpressible (.literal (.identifier s)) = true ↔ s ≠ "" ∧
          (∀ c ∈ s.toList, isBlank c = false ∧ c ≠ '\'' ∧ c ≠ '"') ∧
          ¬ LooksLikeNumber s.toList := by
        simp [isExpressible, isExpressibleAtom, ← isNumber_iff, and_assoc]
      rw [hname]
      constructor
      · rintro ⟨some, solid, other⟩
        exact .identifier some solid other
      · intro h
        cases h with
        | identifier some solid other => exact ⟨some, solid, other⟩
  | placeholder place =>
    obtain ⟨verbatim, list, ref⟩ := place
    have href : isExpressible (.placeholder ⟨verbatim, list, ref⟩) = true ↔ ExpressibleRef ref :=
      expressibleRef_iff
    rw [href]
    constructor
    · exact .placeholder verbatim list
    · intro h
      cases h
      assumption

instance : DecidablePred Expressible := fun part => decidable_of_iff _ (@expressible_iff part)

/-! ## Words that are read -/

/-- The text of a bare word has neither blanks nor quotes in it. -/
theorem BareOf.solid {source text : List Char} (h : BareOf source text) :
    ∀ c ∈ text, isBlank c = false ∧ c ≠ '\'' ∧ c ≠ '"' := by
  induction h with
  | nil => simp
  | brace brace _ ih =>
    rw [List.forall_mem_cons]
    refine ⟨?_, ih⟩
    rcases brace with rfl | rfl <;> decide
  | plain plain _ ih =>
    obtain ⟨hblank, -, hquote⟩ := isPlain_iff.1 plain
    rw [not_or] at hquote
    rw [List.forall_mem_cons]
    exact ⟨⟨hblank, hquote⟩, ih⟩

theorem BareOf.eq_nil_iff {source text : List Char} (h : BareOf source text) :
    source = [] ↔ text = [] := by
  cases h <;> simp

/-- A reference that was read can be written again: its digits without leading zeros are no more
than those that were read. -/
theorem RefOf.expressible {name : List Char} {ref ref' : Ref} (h : RefOf name ref)
    (hread : refOfText name = .ok ref') : ExpressibleRef ref := by
  cases h with
  | name start more =>
    refine .name ?_
    rw [String.toList_ofList]
    exact ⟨_, _, rfl, start, more⟩
  | position digits =>
    refine .position ?_
    have hshort : name.length ≤ maxDigits := by
      by_contra hlong
      simp only [refOfText, List.all_eq_true.2 digits.2, Nat.lt_of_not_le hlong, ↓reduceIte] at hread
      cases hread
    exact (length_digits_ofDigits_le digits.2 digits.1).trans hshort

/-- **A word that was read stands for a part with a short form.** -/
theorem WordOf.expressible {source rest : List Char} {part : Part} (h : WordOf source part)
    (hend : atWordEnd rest = true) (hread : word (source ++ rest) = .done part rest) :
    Expressible part := by
  cases h with
  | @placeholder name ref verbatim list named =>
    refine .placeholder verbatim list ?_
    rw [word_placeholder named verbatim list hend] at hread
    cases hok : refOfText name with
    | ok ref' => exact named.expressible hok
    | error fault => rw [hok] at hread; cases hread
  | apostrophes free => exact .text _
  | doubleQuotes inside => exact .text _
  | number bare number =>
    refine .number ?_
    rwa [String.toList_ofList]
  | @identifier _ text bare some other =>
    refine .identifier ?_ ?_ ?_
    · rw [Ne, ← String.toList_eq_nil_iff, String.toList_ofList, ← bare.eq_nil_iff]
      exact some
    · rw [String.toList_ofList]
      exact bare.solid
    · rwa [String.toList_ofList]

theorem readParts_expressible {read parts : List Part} {cs rest : List Char}
    (h : readParts read cs = .done parts rest) (hread : ∀ p ∈ read, Expressible p) :
    ∀ p ∈ parts, Expressible p := by
  fun_induction readParts read cs with
  | case1 read cs hskip =>
    cases h
    intro p hp
    exact hread p (List.mem_reverse.1 hp)
  | case2 => cases h
  | case3 read cs c tail hskip part rest' hword ih =>
    obtain ⟨source, hsource, hw, hend⟩ := word_sound (not_isBlank_of_skipBlanks hskip) hword
    rw [hsource] at hword
    have hpart : Expressible part := hw.expressible hend hword
    exact ih h (List.forall_mem_cons.2 ⟨hpart, hread⟩)

/-! ## Words that are written -/

theorem doubleQuotedOf_escape (cs : List Char) : DoubleQuotedOf (cs.flatMap escapeChar) cs := by
  induction cs with
  | nil => exact .nil
  | cons c cs ih =>
    rw [List.flatMap_cons]
    by_cases hc : c = '"' ∨ c = '\\'
    · rw [escapeChar, if_pos hc]
      exact .escape hc ih
    · rw [escapeChar, if_neg hc]
      exact .plain (not_or.1 hc) ih

theorem bareOf_doubleBrace {cs : List Char}
    (solid : ∀ c ∈ cs, isBlank c = false ∧ c ≠ '\'' ∧ c ≠ '"') :
    BareOf (cs.flatMap doubleBrace) cs := by
  induction cs with
  | nil => exact .nil
  | cons c cs ih =>
    obtain ⟨⟨hblank, hquote⟩, hrest⟩ := List.forall_mem_cons.1 solid
    rw [List.flatMap_cons]
    by_cases hc : c = '{' ∨ c = '}'
    · rw [doubleBrace, if_pos hc]
      exact .brace hc (ih hrest)
    · rw [doubleBrace, if_neg hc]
      exact .plain (isPlain_iff.2 ⟨hblank, hc, not_or.2 hquote⟩) (ih hrest)

theorem doubleBrace_ne_nil {s : String} (hne : s ≠ "")
    (solid : ∀ c ∈ s.toList, isBlank c = false ∧ c ≠ '\'' ∧ c ≠ '"') :
    s.toList.flatMap doubleBrace ≠ [] := by
  intro hnil
  have htext : s.toList = [] := (bareOf_doubleBrace solid).eq_nil_iff.1 hnil
  exact hne (String.toList_eq_nil_iff.1 htext)

theorem refOf_refSource {ref : Ref} (h : ExpressibleRef ref) : RefOf (refSource ref) ref := by
  cases h with
  | @name s hname =>
    obtain ⟨c, rest, hs, start, more⟩ := hname
    have href : s = String.ofList (c :: rest) := by rw [← hs, String.ofList_toList]
    rw [refSource, hs, href]
    exact .name start more
  | @position n short =>
    have hdigits : IsDigits (digits n) := ⟨digits_ne_nil n, fun c hc => digits_isDigit hc⟩
    have href := RefOf.position hdigits
    rwa [ofDigits_digits] at href

theorem refOfText_refSource {ref : Ref} (h : ExpressibleRef ref) :
    refOfText (refSource ref) = .ok ref := by
  refine (refOfText_of_refOf (refOf_refSource h)).resolve_right ?_
  rintro ⟨digits, hlong, -⟩
  cases h with
  | @name s hname =>
    obtain ⟨c, rest, hs, start, -⟩ := hname
    have hdigit : c.isDigit = true := digits.2 c (by rw [refSource, hs]; exact List.mem_cons_self)
    rw [not_isDigit_of_isNameStart start] at hdigit
    cases hdigit
  | position short => exact absurd short (Nat.not_le_of_lt hlong)

/-- A part with a short form is written as a word of it. -/
theorem wordOf_wordSource {part : Part} (h : Expressible part) : WordOf (wordSource part) part := by
  cases h with
  | text s =>
    have hword := WordOf.doubleQuotes (doubleQuotedOf_escape s.toList)
    rwa [String.ofList_toList] at hword
  | @number s number =>
    have hword := WordOf.number (bareOf_number number) number
    rwa [String.ofList_toList] at hword
  | @identifier s some solid other =>
    have hword := WordOf.identifier (bareOf_doubleBrace solid) (doubleBrace_ne_nil some solid) other
    rwa [String.ofList_toList] at hword
  | placeholder verbatim list named =>
    exact .placeholder verbatim list (refOf_refSource named)

/-- **A part with a short form is written as a word that is read as it.** A number is within the
limits of numbers, or it would be none. -/
theorem word_wordSource {part : Part} {rest : List Char} (valid : part.WellFormed)
    (h : Expressible part) (hend : atWordEnd rest = true) :
    word (wordSource part ++ rest) = .done part rest := by
  cases h with
  | text s =>
    have hword := word_doubleQuotes (doubleQuotedOf_escape s.toList) hend
    rwa [String.ofList_toList] at hword
  | @number s number =>
    have hatom : atomOfWord s.toList = .ok (.number s) := by
      rw [atomOfWord_number number, String.ofList_toList]
      exact if_pos valid
    have hword := word_bare (bareOf_number number) number.ne_nil hend
    rwa [hatom] at hword
  | @identifier s some solid other =>
    have hword := word_bare (bareOf_doubleBrace solid) (doubleBrace_ne_nil some solid) hend
    rwa [atomOfWord_identifier other, String.ofList_toList] at hword
  | placeholder verbatim list named =>
    have hword := word_placeholder (refOf_refSource named) verbatim list hend
    rwa [refOfText_refSource named] at hword

/-! ## Templates that are written -/

/-- What is written for some parts is read as them, behind parts that were read before. -/
theorem readParts_written {parts : List Part} (valid : ∀ p ∈ parts, p.WellFormed)
    (h : ∀ p ∈ parts, Expressible p) (read : List Part) :
    readParts read (List.intercalate [' '] (parts.map wordSource)) =
      .done (read.reverse ++ parts) [] := by
  have hspace : ∀ c ∈ [' '], isBlank c = true := List.forall_mem_singleton.2 rfl
  induction parts generalizing read with
  | nil =>
    have hend := @readParts_end read [] rfl
    simpa using hend
  | cons p parts ih =>
    obtain ⟨hvalid, valid⟩ := List.forall_mem_cons.1 valid
    obtain ⟨hp, h⟩ := List.forall_mem_cons.1 h
    -- the word of the first part starts the text, and ends at a space or at the end
    have hfirst : ∀ rest, atWordEnd rest = true →
        readParts read (wordSource p ++ rest) = readParts (p :: read) rest := by
      intro rest hend
      obtain ⟨c, tail, hsource, solid⟩ := (wordOf_wordSource hp).head
      have hskip : skipBlanks (wordSource p ++ rest) = c :: (tail ++ rest) := by
        rw [hsource]
        exact @skipBlanks_gap [] _ (by simp) (forall_head_cons solid _)
      have hword := word_wordSource hvalid hp hend
      rw [hsource, List.cons_append] at hword
      exact readParts_word hskip hword
    cases parts with
    | nil =>
      have hlast := hfirst [] rfl
      rw [List.append_nil, @readParts_end (p :: read) [] rfl, List.reverse_cons] at hlast
      simpa [List.intercalate_singleton] using hlast
    | cons q parts =>
      rw [List.map_cons, List.map_cons, List.intercalate_cons_cons, List.append_assoc,
        hfirst _ (by rfl), readParts_blanks hspace, ← List.map_cons, ih valid h]
      simp

theorem parse_write {parts : List Part} (valid : ∀ p ∈ parts, p.WellFormed)
    (h : ∀ p ∈ parts, Expressible p) : parse (write parts) = .ok parts := by
  have hread := readParts_written valid h []
  rw [List.reverse_nil, List.nil_append] at hread
  rw [parse, write, String.toList_ofList, hread]

theorem expressible_of_parse {t : String} {parts : List Part} (h : parse t = .ok parts) :
    ∀ p ∈ parts, Expressible p := by
  obtain ⟨rest, hread⟩ := parse_eq_ok_iff.1 h
  exact readParts_expressible hread (by simp)

/-- **The lists of parts that templates have.** Parts are those of a template exactly if each of
them has a short form, and then what is written for them is a template of them. -/
theorem exists_parse_eq_iff_expressible {parts : List Part} (valid : ∀ p ∈ parts, p.WellFormed) :
    ((∃ t, parse t = .ok parts) ↔ ∀ p ∈ parts, Expressible p) ∧
      ((∀ p ∈ parts, Expressible p) → parse (write parts) = .ok parts) := by
  refine ⟨⟨?_, ?_⟩, parse_write valid⟩
  · rintro ⟨t, ht⟩
    exact expressible_of_parse ht
  · intro h
    exact ⟨write parts, parse_write valid h⟩

/-- Parts that are hard to write: a name that looks like a placeholder, a text that ends with an
escape sign, a number with leading zeros, a position of two digits. -/
def awkwardParts : List Part :=
  [.literal (.identifier "\x7bx\x7d"), .literal (.text "'\"\\"), .literal (.number "-00.50"),
    .placeholder ⟨true, true, .position 10⟩]

theorem awkwardParts_have_template :
    (∀ p ∈ awkwardParts, p.WellFormed) ∧ (∀ p ∈ awkwardParts, Expressible p) ∧
      write awkwardParts = "\x7b\x7bx\x7d\x7d \"'\\\"\\\\\" -00.50 \x7b!*10\x7d" ∧
      parse (write awkwardParts) = .ok awkwardParts ∧
      ¬ ∃ t, parse t = .ok [.literal (.number "1E+5")] := by
  have valid : ∀ p ∈ awkwardParts, p.WellFormed := by decide
  have expressible : ∀ p ∈ awkwardParts, Expressible p := by decide
  have valid' : ∀ p ∈ [Part.literal (.number "1E+5")], p.WellFormed := by decide
  refine ⟨valid, expressible, by decide, (exists_parse_eq_iff_expressible valid).2 expressible, ?_⟩
  rw [(exists_parse_eq_iff_expressible valid').1]
  decide

end ShellTemplate.Template
