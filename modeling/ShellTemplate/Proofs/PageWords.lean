import ShellTemplate.Page.Reader
import ShellTemplate.Proofs.LineWords
import ShellTemplate.Proofs.WrittenTemplates

/-!
# A shell reads back what a page inserts

A page for a shell is a row of words with separators between them, some of which are expressions
that quote a variable. Rendering puts a row of quoted texts in its place. Whether the shell reads
these texts hangs on the escaping for markup: it writes the apostrophe as an entity, and an entity
starts with a character that no shell takes for itself.

* `RowOf` — a text in which some items stand one after the other; `texts?_rowOf` — it is read item
  by item.
* `exists_pieces` — a page that is a row is rendered as a row, item by item.
* `yields_shown` — what an item is shown as is read as its texts, or it is refused.

Principal result: `render_row_reads_back` — without escaping a rendered page is read as the texts
that were inserted; with escaping only if none of them needs quotes, and otherwise it is refused.
-/

set_option autoImplicit false

namespace ShellTemplate

open Shell Shell.Rules Text

/-! ## Rows -/

section Rows

variable {α : Type}

/-- A text is a row of some items: separators, what is written for an item, and a row that is empty
or starts with a separator. -/
inductive RowOf (Written : α → List Char → Prop) : List α → List Char → Prop where
  | nil {gap : List Char} (blank : ∀ c ∈ gap, isSeparator c = true) : RowOf Written [] gap
  | cons {item : α} {items : List α} {gap source rest : List Char}
    (blank : ∀ c ∈ gap, isSeparator c = true) (written : Written item source)
    (apart : ∀ c ∈ rest.head?, isSeparator c = true) (more : RowOf Written items rest) :
    RowOf Written (item :: items) (gap ++ (source ++ rest))

variable {Written : α → List Char → Prop} {items : List α} {text : List Char}

/-- A separator behind a row is one more separator of it. -/
theorem RowOf.of_concat {s : Char} (hs : isSeparator s = true)
    (solid : ∀ item source, Written item source → ∀ c ∈ source.getLast?, isSeparator c = false)
    (some : ∀ item source, Written item source → source ≠ [])
    (h : RowOf Written items (text ++ [s])) : RowOf Written items text := by
  generalize hwhole : text ++ [s] = whole at h
  induction h generalizing text with
  | nil blank => exact .nil fun c hc => blank c (hwhole ▸ List.mem_append_left _ hc)
  | @cons item items gap source rest blank written apart more ih =>
    rcases List.eq_nil_or_concat rest with rfl | ⟨front, c, rfl⟩
    · obtain ⟨front, c, rfl⟩ := (List.eq_nil_or_concat source).resolve_left (some _ _ written)
      rw [List.append_nil, List.concat_eq_append, ← List.append_assoc] at hwhole
      obtain ⟨-, hlast⟩ := List.append_inj' hwhole rfl
      cases hlast
      have hsolid := solid _ _ written s (by simp)
      rw [hs] at hsolid
      cases hsolid
    · rw [List.concat_eq_append] at *
      rw [← List.append_assoc, ← List.append_assoc] at hwhole
      obtain ⟨hfront, hlast⟩ := List.append_inj' hwhole rfl
      cases hlast
      rw [hfront, List.append_assoc]
      refine .cons blank written ?_ (ih rfl)
      cases front with
      | nil => simp
      | cons d front => exact apart

variable {rules : Rules}

theorem texts?_separators_append (rules : Rules) {gap : List Char}
    (h : ∀ c ∈ gap, isSeparator c = true) (cs : List Char) :
    rules.texts? (gap ++ cs) = rules.texts? cs := by
  induction gap with
  | nil => rfl
  | cons c gap ih =>
    rw [List.forall_mem_cons] at h
    have hcut : rules.words? ([] ++ c :: (gap ++ cs)) = (rules.words? (gap ++ cs)).map ([] ++ ·) :=
      words?_append_separator rules h.1 rfl _
    rw [List.nil_append] at hcut
    rw [← ih h.2, List.cons_append, texts?, hcut, texts?]
    cases rules.words? (gap ++ cs) <;> rfl

/-- A separator cuts a line in two that are read by themselves. -/
theorem texts?_append_separator {s : Char} (hs : isSeparator s = true) {cs : List Char}
    {ts : List (List Char)} (h : rules.texts? cs = some ts) (ds : List Char) :
    rules.texts? (cs ++ s :: ds) = (rules.texts? ds).map (ts ++ ·) := by
  obtain ⟨ws, hws, rfl⟩ := texts?_eq_some.1 h
  rw [texts?, words?_append_separator rules hs hws, texts?]
  cases rules.words? ds <;> simp

/-- What a text is read as at the end of a word: some words, or it is refused whatever follows. -/
def Yields (rules : Rules) (text : List Char) : Option (List (List Char)) → Prop
  | some ts => rules.texts? text = some ts
  | none => ∀ rest, rules.texts? (text ++ rest) = none

/-- **A row is read item by item**, and refused if one of them is. -/
theorem texts?_rowOf (h : RowOf Written items text) {outcome : α → Option (List (List Char))}
    (reads : ∀ item source, Written item source → Yields rules source (outcome item)) :
    rules.texts? text = (items.mapM outcome).map List.flatten := by
  induction h with
  | @nil gap blank =>
    have hgap := texts?_separators_append rules blank []
    rwa [List.append_nil] at hgap
  | @cons item items gap source rest blank written apart more ih =>
    have hitem := reads _ _ written
    rw [texts?_separators_append rules blank, List.mapM_cons]
    cases hout : outcome item with
    | none =>
      rw [hout] at hitem
      exact hitem rest
    | some ts =>
      rw [hout] at hitem
      have htexts : rules.texts? (source ++ rest) = (rules.texts? rest).map (ts ++ ·) := by
        cases rest with
        | nil =>
          have hempty : rules.texts? [] = some [] := rfl
          rw [List.append_nil, hitem, hempty]
          simp
        | cons c rest =>
          have hc := apart c rfl
          have hdrop : rules.texts? ([c] ++ rest) = rules.texts? rest :=
            texts?_separators_append rules (by simpa using hc) rest
          rw [texts?_append_separator hc hitem, ← hdrop]
          rfl
      rw [htexts, ih]
      cases items.mapM outcome <;> simp

end Rows

/-! ## Pages for a shell -/

/-- The words that mean something in an expression, so that no variable has their name. -/
def languageWords : List String :=
  ["true", "True", "false", "False", "none", "None", "not", "and", "or", "in", "is", "if", "else",
    "self"]

/-- An item of a page for a shell: a word, or a variable that is quoted. -/
inductive PageItem where
  | word (text : List Char)
  | place (name : String)

/-- What is written for an item of a page: a word of safe characters is itself, and a variable
stands in an expression that quotes it. -/
inductive PageItem.Written : PageItem → List Char → Prop where
  | word {text : List Char} (safe : isSafeWord text = true) : Written (.word text) text
  | place {name : String} {before between behind after : List Char}
    (named : Template.IsName name.toList) (variable_name : name ∉ languageWords)
    (blank : ∀ c ∈ before ++ between ++ behind ++ after, isSeparator c = true) :
    Written (.place name) ('{' :: '{' :: (before ++ (name.toList ++ (between ++ '|' :: (behind ++
      ("shquote".toList ++ (after ++ ['}', '}'])))))))

/-- The texts that an item of a page stands for: a word for itself, a variable for its text or for
the texts in its list. -/
inductive PageItem.Stands (bindings : Variables) : PageItem → List String → Prop where
  | word (text : List Char) : Stands bindings (.word text) [String.ofList text]
  | text {name s : String} (bound : bindings.lookup name = some (.str s)) :
    Stands bindings (.place name) [s]
  | list {name : String} {ss : List String}
    (bound : bindings.lookup name = some (.list (ss.map .str))) : Stands bindings (.place name) ss

/-! ## Reading expressions -/

theorem isBlank_of_isSeparator {c : Char} (h : isSeparator c = true) : isBlank c = true := by
  simp only [isSeparator, Bool.or_eq_true, decide_eq_true_eq] at h
  rcases h with (rfl | rfl) | rfl <;> decide

theorem isNameChar_of_isSeparator {c : Char} (h : isSeparator c = true) : isNameChar c = false := by
  simp only [isSeparator, Bool.or_eq_true, decide_eq_true_eq] at h
  rcases h with (rfl | rfl) | rfl <;> decide

theorem tokens_separators {gap : List Char} (h : ∀ c ∈ gap, isSeparator c = true)
    (read : List Token) (cs : List Char) : tokens read (gap ++ cs) = tokens read cs := by
  induction gap with
  | nil => rfl
  | cons c gap ih =>
    rw [List.forall_mem_cons] at h
    rw [← ih h.2, List.cons_append, tokens.eq_def]
    split
    · rename_i heq; cases heq
    · rename_i heq
      have hbrace := (List.cons.inj heq).1 ▸ h.1
      exact absurd hbrace (by decide)
    · rename_i heq
      cases heq
      rw [if_pos (isBlank_of_isSeparator h.1)]

theorem not_isBlank_of_isNameStart {c : Char} (h : isNameStart c = true) :
    isBlank c = false ∧ c ≠ '}' := by
  have hascii : c.toNat < 128 := by
    rw [isNameStart, Bool.or_eq_true, beq_iff_eq] at h
    rcases h with h | rfl
    · have halpha := toNat_of_isAlpha h
      omega
    · decide
  have table : ∀ n < 128, isNameStart (Char.ofNat n) = true →
      isBlank (Char.ofNat n) = false ∧ Char.ofNat n ≠ '}' := by decide +kernel
  have hc := table c.toNat hascii
  rw [Char.ofNat_toNat] at hc
  exact hc h

theorem tokens_name {name : String} (h : Template.IsName name.toList) (read : List Token)
    {cs : List Char} (stop : ∀ c ∈ cs.head?, isNameChar c = false) :
    tokens read (name.toList ++ cs) = tokens (.name name :: read) cs := by
  obtain ⟨c, rest, hname, hstart, hmore⟩ := h
  have htake := takeWhile_run hmore stop
  have hdrop := dropWhile_run hmore stop
  obtain ⟨hblank, hbrace⟩ := not_isBlank_of_isNameStart hstart
  have hwhole : String.ofList (c :: rest) = name := by rw [← hname, String.ofList_toList]
  rw [hname, List.cons_append, tokens.eq_def]
  split
  · rename_i heq; cases heq
  · rename_i heq
    exact absurd (List.cons.inj heq).1 hbrace
  · rename_i heq
    cases heq
    rw [if_neg (by simp [hblank]), if_pos hstart, htake, hdrop, hwhole]

theorem tokens_bar (read : List Token) (cs : List Char) :
    tokens read ('|' :: cs) = tokens (.symbol '|' :: read) cs := by
  rw [tokens.eq_def]
  rfl

theorem tokens_close (read : List Token) (cs : List Char) :
    tokens read ('}' :: '}' :: cs) = some (read.reverse, cs) := by
  rw [tokens.eq_def]
  rfl

theorem isName_shquote : Template.IsName "shquote".toList :=
  ⟨'s', "hquote".toList, rfl, by decide, List.all_eq_true.1 rfl⟩

/-- The characters behind a name do not go on with it. -/
theorem head_separators_append {gap : List Char} (h : ∀ c ∈ gap, isSeparator c = true) {d : Char}
    (hd : isNameChar d = false) (cs : List Char) :
    ∀ c ∈ (gap ++ d :: cs).head?, isNameChar c = false := by
  cases gap with
  | nil => rintro c ⟨⟩; exact hd
  | cons b gap => rintro c ⟨⟩; exact isNameChar_of_isSeparator (h b List.mem_cons_self)

/-- An expression that quotes a variable is read as the variable and the quoting. -/
theorem tokens_place {name : String} (named : Template.IsName name.toList)
    {before between behind after : List Char}
    (blank : ∀ c ∈ before ++ between ++ behind ++ after, isSeparator c = true) (rest : List Char) :
    tokens [] (before ++ (name.toList ++ (between ++ '|' :: (behind ++
      ("shquote".toList ++ (after ++ '}' :: '}' :: rest)))))) =
        some ([.name name, .symbol '|', .name "shquote"], rest) := by
  simp only [List.forall_mem_append] at blank
  obtain ⟨⟨⟨hbefore, hbetween⟩, hbehind⟩, hafter⟩ := blank
  rw [tokens_separators hbefore,
    tokens_name named _ (head_separators_append hbetween (by decide) _),
    tokens_separators hbetween, tokens_bar, tokens_separators hbehind,
    tokens_name isName_shquote _ (head_separators_append hafter (by decide) _),
    tokens_separators hafter, tokens_close]
  rfl

/-- The expression that quotes a variable. -/
def quoting (name : String) : Expression := ⟨.operand (.named name), [.minimal]⟩

theorem expressionOf_quoting {name : String} (h : name ∉ languageWords) :
    expressionOf [.name name, .symbol '|', .name "shquote"] = some (quoting name) := by
  have hoperand : operandOfName name = .named name := by
    simp only [languageWords, List.mem_cons, not_or] at h
    simp [operandOfName, h]
  unfold expressionOf
  split
  · rename_i heq; cases heq
  · rename_i heq
    cases heq
    rw [hoperand]
    rfl
  · rename_i heq; cases heq
  · rename_i hname _
    exact absurd rfl (hname _ _)

/-! ## Pieces -/

theorem piecesFrom_plain {cs : List Char} (h : '{' ∉ cs) (plain rest : List Char) :
    piecesFrom plain (cs ++ rest) = piecesFrom (cs.reverse ++ plain) rest := by
  induction cs generalizing plain with
  | nil => rfl
  | cons c cs ih =>
    rw [List.mem_cons, not_or] at h
    have hc : piecesFrom plain (c :: (cs ++ rest)) = piecesFrom (c :: plain) (cs ++ rest) := by
      rw [piecesFrom.eq_def]
      split
      all_goals rename_i heq
      · cases heq
      iterate 3 exact absurd (List.cons.inj heq).1.symm h.1
      · cases heq; rfl
    rw [List.cons_append, hc, ih h.2]
    simp

theorem piecesFrom_place {name : String} {source : List Char}
    (h : PageItem.Written (.place name) source) (plain rest : List Char) :
    piecesFrom plain (source ++ rest) = (piecesFrom [] rest).map fun pieces =>
      .text plain.reverse :: .expression (quoting name) :: pieces := by
  cases h with
  | place named variable_name blank =>
    have htokens := tokens_place named blank rest
    simp only [List.cons_append, List.append_assoc, List.nil_append]
    rw [piecesFrom.eq_def]
    split
    all_goals rename_i heq
    · cases heq
    · obtain rfl := (List.cons.inj (List.cons.inj heq).2).2
      split
      · rename_i hnone
        rw [htokens] at hnone
        cases hnone
      · rename_i hsome
        rw [htokens] at hsome
        cases hsome
        rw [expressionOf_quoting variable_name]
        cases piecesFrom [] rest <;> rfl
    · exact absurd (List.cons.inj (List.cons.inj heq).2).1 (by decide)
    · exact absurd (List.cons.inj (List.cons.inj heq).2).1 (by decide)
    · rename_i hno _ _
      cases heq
      exact (hno _ rfl rfl).elim

/-! ## Rendered pages -/

/-- What the texts of an item are shown as: quoted where they need to be, with spaces between them,
and escaped for markup if the page is. -/
def shown (escaped : Bool) (ts : List String) : List Char :=
  let line := (spaced (ts.map (quoteText .minimal))).toList
  if escaped then escapeMarkup line else line

theorem entity_safe {c : Char} : isSafe c = true → entity c = [c] :=
  forall_isSafe (P := fun c => entity c = [c]) (by decide +kernel)

theorem escapeMarkup_safe {cs : List Char} (h : ∀ c ∈ cs, isSafe c = true) :
    escapeMarkup cs = cs := by
  induction cs with
  | nil => rfl
  | cons c cs ih =>
    rw [List.forall_mem_cons] at h
    rw [escapeMarkup, List.flatMap_cons, entity_safe h.1]
    exact congrArg (c :: ·) (ih h.2)

theorem quoteWord_safe {cs : List Char} (h : isSafeWord cs = true) :
    quoteWord .minimal cs = cs := if_pos ⟨rfl, h⟩

/-- A word of safe characters is shown as it is. -/
theorem shown_word (escaped : Bool) {text : List Char} (h : isSafeWord text = true) :
    shown escaped [String.ofList text] = text := by
  have hall : ∀ c ∈ text, isSafe c = true := (isSafeWord_iff.1 h).2
  have hline : (spaced ([String.ofList text].map (quoteText .minimal))).toList = text := by
    rw [toList_spaced]
    simp [quoteText, quoteWord_safe h, List.intercalate_singleton]
  rw [shown, hline]
  cases escaped with
  | true => exact escapeMarkup_safe hall
  | false => rfl

/-- A list of texts is quoted text by text. -/
theorem mapM_quoteText (style : Style) (ss : List String) :
    (ss.map Value.str).mapM
      (fun item => (Atom.ofValue item).map fun a => quoteText style a.content) =
      .ok (ss.map (quoteText style)) := by
  rw [mapM_eq_ok_iff, List.forall₂_map_left_iff, List.forall₂_map_right_iff, List.forall₂_same]
  exact fun _ _ => rfl

/-- An expression that quotes a variable is rendered as what its texts are shown as. -/
theorem render_quoting {bindings : Variables} {name : String} {ts : List String}
    (h : PageItem.Stands bindings (.place name) ts) (escaped : Bool) :
    (Piece.expression (quoting name)).render bindings escaped = .ok (shown escaped ts) := by
  have hvalue : (quoting name).value bindings =
      .ok (.str (spaced (ts.map (quoteText .minimal)))) := by
    cases h with
    | @text _ s bound =>
      have hone : spaced [quoteText .minimal s] = quoteText .minimal s := by
        rw [← String.toList_inj, toList_spaced, List.map_singleton, List.intercalate_singleton]
      rw [List.map_singleton, hone]
      simp only [quoting, Expression.value, Origin.value, Operand.value, bound]
      rfl
    | list bound =>
      have hquoted : quoteValue .minimal (.list (ts.map .str)) =
          .ok (spaced (ts.map (quoteText .minimal))) := by
        have hitems := mapM_quoteText .minimal ts
        simp only [quoteValue, Value.listItems?]
        rw [hitems]
        rfl
      simp only [quoting, Expression.value, Origin.value, Operand.value, bound]
      simp [hquoted, bind, Except.bind, pure, Except.pure, Except.map]
  rw [Piece.render, hvalue]
  rfl

theorem PageItem.Written.head {item : PageItem} {source : List Char} (h : item.Written source) :
    ∃ c tail, source = c :: tail ∧ isSeparator c = false := by
  cases h with
  | word safe =>
    obtain ⟨hne, hall⟩ := isSafeWord_iff.1 safe
    obtain ⟨c, tail, rfl⟩ := List.exists_cons_of_ne_nil hne
    exact ⟨c, tail, rfl, (isSafe_ordinary (hall c List.mem_cons_self)).1⟩
  | place _ _ _ => exact ⟨'{', _, rfl, by decide⟩

theorem brace_notMem_of_blank {gap : List Char} (blank : ∀ c ∈ gap, isSeparator c = true) :
    '{' ∉ gap :=
  fun hmem => absurd (blank '{' hmem) (by decide)

/-- What starts with a separator in front of an item does so whatever stands for the item. -/
theorem PageItem.Written.separated {item : PageItem} {source : List Char} (h : item.Written source)
    (gap rest text : List Char)
    (hsep : ∀ d ∈ (gap ++ (source ++ rest)).head?, isSeparator d = true) :
    ∀ d ∈ (gap ++ text).head?, isSeparator d = true := by
  cases gap with
  | nil =>
    obtain ⟨c, tail, rfl, hsolid⟩ := h.head
    cases hsolid.symm.trans (hsep c rfl)
  | cons d gap => exact hsep

/-- **A page that is a row is rendered as a row**, item by item and with the separators as they
are. -/
theorem exists_pieces {items : List PageItem} {source : List Char}
    (h : RowOf PageItem.Written items source) {bindings : Variables} {tss : List (List String)}
    (stands : List.Forall₂ (PageItem.Stands bindings) items tss) (escaped : Bool) :
    ∀ plain, ∃ pieces texts text, piecesFrom plain source = some pieces ∧
      pieces.mapM (Piece.render bindings escaped) = .ok texts ∧
      texts.flatten = plain.reverse ++ text ∧
      RowOf (fun ts text => text = shown escaped ts) tss text ∧
      ((∀ c ∈ source.head?, isSeparator c = true) → ∀ c ∈ text.head?, isSeparator c = true) := by
  induction h generalizing tss with
  | @nil gap blank =>
    intro plain
    cases stands
    have hpieces := piecesFrom_plain (brace_notMem_of_blank blank) plain []
    rw [List.append_nil] at hpieces
    refine ⟨_, [plain.reverse ++ gap], gap, hpieces.trans (by rw [piecesFrom]), ?_, by simp,
      .nil blank, id⟩
    simp [Piece.render]
  | @cons item items gap source rest blank written apart more ih =>
    intro plain
    rw [piecesFrom_plain (brace_notMem_of_blank blank)]
    cases stands with
    | @cons _ ts _ tss hitem hitems =>
    have hstart := written.separated gap rest
    cases item with
    | word word =>
      cases written with
      | word safe =>
      cases hitem
      rw [piecesFrom_plain (notMem_of_isSafeWord safe rfl)]
      obtain ⟨pieces, texts, text, hpieces, htexts, hflat, hrow, hhead⟩ :=
        ih hitems (source.reverse ++ (gap.reverse ++ plain))
      refine ⟨pieces, texts, gap ++ (source ++ text), hpieces, htexts, ?_,
        .cons blank (shown_word escaped safe).symm (hhead apart) hrow, hstart _⟩
      rw [hflat]
      simp
    | place name =>
      obtain ⟨pieces, texts, text, hpieces, htexts, hflat, hrow, hhead⟩ := ih hitems []
      refine ⟨.text (gap.reverse ++ plain).reverse :: .expression (quoting name) :: pieces,
        (plain.reverse ++ gap) :: shown escaped ts :: texts, gap ++ (shown escaped ts ++ text),
        ?_, ?_, ?_, .cons blank rfl (hhead apart) hrow, hstart _⟩
      · rw [piecesFrom_place written, hpieces]
        rfl
      · rw [mapM_eq_ok_iff] at htexts ⊢
        refine .cons ?_ (.cons (render_quoting hitem escaped) htexts)
        rw [List.reverse_append, List.reverse_reverse]
        rfl
      · simp [hflat]

/-! ## Reading rendered pages -/

theorem escapeMarkup_intercalate (texts : List (List Char)) :
    escapeMarkup (List.intercalate [' '] texts) =
      List.intercalate [' '] (texts.map escapeMarkup) := by
  induction texts with
  | nil => rfl
  | cons text texts ih =>
    cases texts with
    | nil => simp [List.intercalate_singleton]
    | cons _ _ =>
      rw [List.map_cons, List.intercalate_cons_cons, List.map_cons, List.intercalate_cons_cons,
        ← List.map_cons, ← ih]
      simp only [escapeMarkup, List.flatMap_append]
      rfl

/-- The words that the texts of an item are shown as. -/
def shownWords (escaped : Bool) (ts : List String) : List (List Char) :=
  ts.map fun t =>
    if escaped then escapeMarkup (quoteWord .minimal t.toList) else quoteWord .minimal t.toList

theorem shown_eq (escaped : Bool) (ts : List String) :
    shown escaped ts = List.intercalate [' '] (shownWords escaped ts) := by
  have hline : (spaced (ts.map (quoteText .minimal))).toList =
      List.intercalate [' '] (ts.map fun t => quoteWord .minimal t.toList) := by
    rw [toList_spaced, List.map_map]
    congr 2
    funext t
    exact String.toList_ofList
  rw [shown, hline]
  cases escaped with
  | false => rfl
  | true =>
    simp only [if_true, escapeMarkup_intercalate, shownWords, List.map_map]
    rfl

theorem texts?_quoteWord (t : String) :
    strict.texts? (quoteWord .minimal t.toList) = some [t.toList] := by
  have hread := texts?_quoteText strict_takesSafe .minimal t
  rwa [quoteText, String.toList_ofList] at hread

theorem escapeMarkup_quoteWord_safe {t : String} (h : isSafeWord t.toList = true) :
    escapeMarkup (quoteWord .minimal t.toList) = quoteWord .minimal t.toList := by
  rw [quoteWord_safe h]
  exact escapeMarkup_safe (isSafeWord_iff.1 h).2

/-- What starts with an entity is refused: its first character is none that the shell takes for
itself. -/
theorem texts?_entity (cs : List Char) : strict.texts? ('&' :: cs) = none := rfl

/-- A quoted text that is escaped for markup starts with an entity. -/
theorem exists_escapeMarkup_quoteWord {t : String} (h : isSafeWord t.toList = false) :
    ∃ cs, escapeMarkup (quoteWord .minimal t.toList) = '&' :: cs := by
  rw [quoteWord, if_neg (by simp [h]), quote]
  exact ⟨_, rfl⟩

/-- Texts of which one needs quotes are refused behind their escaping. -/
theorem texts?_shownWords_escaped {ts : List String} (h : ∃ t ∈ ts, isSafeWord t.toList = false)
    (rest : List Char) :
    strict.texts? (List.intercalate [' '] (shownWords true ts) ++ rest) = none := by
  induction ts with
  | nil => simp at h
  | cons t ts ih =>
    cases ht : isSafeWord t.toList with
    | false =>
      obtain ⟨cs, hcs⟩ := exists_escapeMarkup_quoteWord ht
      have hfirst :
          ∃ cs', List.intercalate [' '] (shownWords true (t :: ts)) ++ rest = '&' :: cs' := by
        cases ts with
        | nil => exact ⟨cs ++ rest, by simp [shownWords, hcs, List.intercalate_singleton]⟩
        | cons u ts =>
          refine ⟨cs ++ ' ' :: (List.intercalate [' '] (shownWords true (u :: ts)) ++ rest), ?_⟩
          simp [shownWords, hcs, List.intercalate_cons_cons]
      obtain ⟨cs', hcs'⟩ := hfirst
      rw [hcs', texts?_entity]
    | true =>
      have hlater : ∃ t ∈ ts, isSafeWord t.toList = false := by
        obtain ⟨u, hu, hunsafe⟩ := h
        rcases List.mem_cons.1 hu with rfl | hu
        · rw [ht] at hunsafe; cases hunsafe
        · exact ⟨u, hu, hunsafe⟩
      have hread := texts?_quoteWord t
      rw [← escapeMarkup_quoteWord_safe ht] at hread
      cases ts with
      | nil => simp at hlater
      | cons u ts =>
        have hcut := texts?_append_separator (show isSeparator ' ' = true by decide) hread
          (List.intercalate [' '] (shownWords true (u :: ts)) ++ rest)
        rw [ih hlater] at hcut
        simpa [shownWords, List.intercalate_cons_cons] using hcut

/-- **What an item is shown as is read as its texts**, unless an apostrophe around one of them is
escaped for markup; then it is refused. -/
theorem yields_shown (escaped : Bool) (ts : List String) :
    Yields strict (shown escaped ts)
      (if escaped = false ∨ ∀ t ∈ ts, isSafeWord t.toList = true then some (ts.map String.toList)
        else none) := by
  rw [shown_eq]
  split
  · rename_i hplain
    have each : List.Forall₂ (fun t words => strict.texts? t = some words) (shownWords escaped ts)
        (ts.map fun t => [t.toList]) := by
      rw [shownWords, List.forall₂_map_left_iff, List.forall₂_map_right_iff, List.forall₂_same]
      intro t ht
      cases escaped with
      | false => exact texts?_quoteWord t
      | true =>
        have hsafe := (hplain.resolve_left (by simp)) t ht
        rw [if_pos rfl, escapeMarkup_quoteWord_safe hsafe]
        exact texts?_quoteWord t
    rw [Yields, texts?_spaced each]
    exact congrArg some List.map_eq_flatMap.symm
  · rename_i hescaped
    rw [not_or, Bool.not_eq_false] at hescaped
    obtain ⟨rfl, hunsafe⟩ := hescaped
    push Not at hunsafe
    obtain ⟨t, ht, hunsafe⟩ := hunsafe
    exact texts?_shownWords_escaped ⟨t, ht, by simpa using hunsafe⟩

/-! ## Pages as they are read -/

theorem PageItem.Written.getLast {item : PageItem} {source : List Char} (h : item.Written source) :
    ∀ c ∈ source.getLast?, isSeparator c = false := by
  cases h with
  | word safe =>
    intro c hc
    have hsafe := (isSafeWord_iff.1 safe).2 c (List.mem_of_getLast? hc)
    exact (isSafe_ordinary hsafe).1
  | place _ _ _ =>
    intro c hc
    simp only [← List.cons_append, ← List.append_assoc] at hc
    rw [show ['}', '}'] = ['}'] ++ ['}'] from rfl, ← List.append_assoc, List.getLast?_concat] at hc
    cases hc
    decide

theorem PageItem.Written.no_return {item : PageItem} {source : List Char}
    (h : item.Written source) :
    '\r' ∉ source := by
  cases h with
  | word safe => exact notMem_of_isSafeWord safe rfl
  | @place name before between behind after named _ blank =>
    obtain ⟨c, rest, hname, hstart, hmore⟩ := named
    have hfree : '\r' ∉ name.toList := by
      rw [hname, List.mem_cons, not_or]
      refine ⟨?_, fun hmem => absurd (hmore '\r' hmem) (by decide)⟩
      rintro rfl
      exact absurd hstart (by decide)
    have hblank : '\r' ∉ before ++ between ++ behind ++ after :=
      fun hmem => absurd (blank '\r' hmem) (by decide)
    simp only [List.mem_append, not_or] at hblank
    simp [hfree, hblank]

theorem RowOf.no_return {items : List PageItem} {source : List Char}
    (h : RowOf PageItem.Written items source) : '\r' ∉ source := by
  induction h with
  | nil blank => exact fun hmem => absurd (blank '\r' hmem) (by decide)
  | cons blank written _ _ ih =>
    rw [List.mem_append, List.mem_append, not_or, not_or]
    exact ⟨fun hmem => absurd (blank '\r' hmem) (by decide), written.no_return, ih⟩

/-- The line ends of a page are left alone, but for the last one; the page is a row without it. -/
theorem RowOf.read {items : List PageItem} {source : List Char}
    (h : RowOf PageItem.Written items source) :
    RowOf PageItem.Written items (dropLastNewline (unifyNewlines source)) := by
  rw [unifyNewlines_eq_self h.no_return, dropLastNewline]
  split
  · rename_i hlast
    obtain ⟨front, rfl⟩ := List.getLast?_eq_some_iff.1 hlast
    rw [List.dropLast_concat]
    refine h.of_concat (by decide) (fun _ _ written => written.getLast) fun _ _ written => ?_
    obtain ⟨c, tail, rfl, -⟩ := written.head
    exact List.cons_ne_nil c tail
  · exact h

/-- **What a page inserts.** A page of words and of expressions that quote variables is rendered for
all texts and lists of texts that the variables have. Without escaping for markup a shell reads the
words and the texts of the variables from it, whatever they hold. With escaping it does so exactly
if each of the texts can stand without quotes, and otherwise it refuses the page. -/
theorem render_row_reads_back {items : List PageItem} {source : String}
    (written : RowOf PageItem.Written items source.toList) {bindings : Variables}
    {tss : List (List String)} (stands : List.Forall₂ (PageItem.Stands bindings) items tss)
    (escaped : Bool) :
    ∃ page text, readPage escaped source = .ok page ∧ page.render bindings = .ok text ∧
      strict.texts? text.toList =
        if escaped = false ∨ ∀ t ∈ tss.flatten, isSafeWord t.toList = true then
          some (tss.flatten.map String.toList)
        else none := by
  obtain ⟨pieces, texts, text, hpieces, htexts, hflat, hrow, -⟩ :=
    exists_pieces written.read stands escaped []
  refine ⟨⟨pieces, escaped⟩, String.ofList texts.flatten, ?_, ?_, ?_⟩
  · rw [readPage, hpieces]
  · rw [Page.render, htexts]
    rfl
  rw [String.toList_ofList, hflat, List.reverse_nil, List.nil_append,
    texts?_rowOf hrow fun ts _ hshown => hshown ▸ yields_shown escaped ts]
  split
  · rename_i hplain
    have heach : tss.mapM (fun ts => if escaped = false ∨ ∀ t ∈ ts, isSafeWord t.toList = true then
        some (ts.map String.toList) else none) = some (tss.map (List.map String.toList)) := by
      rw [mapM_eq_some_iff, List.forall₂_map_right_iff, List.forall₂_same]
      intro ts hts
      exact if_pos (hplain.imp id fun hall t ht => hall t (List.mem_flatten_of_mem hts ht))
    rw [heach, Option.map_some, List.map_flatten]
  · rename_i hescaped
    rw [not_or] at hescaped
    rw [Option.map_eq_none_iff, Option.eq_none_iff_forall_ne_some]
    intro wss hwss
    refine hescaped.2 fun t ht => ?_
    obtain ⟨ts, hts, ht⟩ := List.mem_flatten.1 ht
    obtain ⟨ws, hws⟩ := exists_forall₂_iff.1 ⟨wss, mapM_eq_some_iff.1 hwss⟩ ts hts
    split at hws
    · rename_i hplain
      exact hplain.resolve_left hescaped.1 t ht
    · cases hws

/-- A page that archives some files. -/
def archivePage : String :=
  "tar czf \x7b\x7b out | shquote \x7d\x7d\t\x7b\x7bfiles|shquote\x7d\x7d\n"

/-- The items of the page. -/
def archiveItems : List PageItem :=
  [.word "tar".toList, .word "czf".toList, .place "out", .place "files"]

/-- Names with blanks and apostrophes for the files. -/
def archiveBindings : Variables :=
  [("out", .str "my backup.tgz"), ("files", .list (["a", "it's"].map .str))]

/-- The texts that the items stand for. -/
def archiveTexts : List (List String) := [["tar"], ["czf"], ["my backup.tgz"], ["a", "it's"]]

theorem archivePage_reads_back :
    RowOf PageItem.Written archiveItems archivePage.toList ∧
      List.Forall₂ (PageItem.Stands archiveBindings) archiveItems archiveTexts ∧
      (∃ page text, readPage false archivePage = .ok page ∧ page.render archiveBindings = .ok text ∧
        strict.texts? text.toList = some (archiveTexts.flatten.map String.toList)) ∧
      ∃ page text, readPage true archivePage = .ok page ∧ page.render archiveBindings = .ok text ∧
        strict.texts? text.toList = none := by
  have written : RowOf PageItem.Written archiveItems archivePage.toList := by
    have hnone : ∀ c ∈ ([] : List Char), isSeparator c = true := List.forall_mem_nil _
    have hspace : ∀ c ∈ [' '], isSeparator c = true := List.all_eq_true.1 rfl
    have htab : ∀ c ∈ ['\t'], isSeparator c = true := List.all_eq_true.1 rfl
    have hout := @PageItem.Written.place "out" [' '] [' '] [' '] [' ']
      ⟨'o', "ut".toList, rfl, by decide, List.all_eq_true.1 rfl⟩ (by decide)
      (List.all_eq_true.1 rfl)
    have hfiles := @PageItem.Written.place "files" [] [] [] []
      ⟨'f', "iles".toList, rfl, by decide, List.all_eq_true.1 rfl⟩ (by decide) hnone
    have hend : RowOf PageItem.Written [] ['\n'] := .nil (List.all_eq_true.1 rfl)
    have hplaces := RowOf.cons hspace hout (forall_head_cons rfl _)
      (.cons htab hfiles (forall_head_cons rfl _) hend)
    have hrow := RowOf.cons hnone (.word (by decide : isSafeWord "tar".toList = true))
      (forall_head_cons rfl _)
      (.cons hspace (.word (by decide : isSafeWord "czf".toList = true))
        (forall_head_cons rfl _) hplaces)
    exact cast (congrArg (RowOf PageItem.Written archiveItems) (by decide +kernel)) hrow
  have stands : List.Forall₂ (PageItem.Stands archiveBindings) archiveItems archiveTexts :=
    .cons (.word _) (.cons (.word _) (.cons (.text rfl) (.cons (.list rfl) .nil)))
  refine ⟨written, stands, ?_, ?_⟩
  · obtain ⟨page, text, hpage, htext, hreads⟩ := render_row_reads_back written stands false
    exact ⟨page, text, hpage, htext, hreads.trans (if_pos (.inl rfl))⟩
  · obtain ⟨page, text, hpage, htext, hreads⟩ := render_row_reads_back written stands true
    exact ⟨page, text, hpage, htext, hreads.trans (if_neg (by decide +kernel))⟩

/-- **A quoted text is refused behind its escaping**: what a page with escaping inserts for a text
with a blank is not read as the text, but not read at all. -/
theorem escaped_quotation_is_refused :
    (do
      let page ← readPage true "\x7b\x7b v | shquote \x7d\x7d"
      page.render [("v", .str "a b")]).toOption = some "&#39;a b&#39;" ∧
    strict.texts? "&#39;a b&#39;".toList = none ∧
    strict.texts? (quoteText .minimal "a b").toList = some ["a b".toList] := by
  refine ⟨by decide +kernel, rfl, ?_⟩
  exact texts?_quoteText strict_takesSafe .minimal "a b"

end ShellTemplate
