import ShellTemplate.Proofs.JsonObjects

/-!
# Documents of parts

A list of parts has many documents, and each of them is read as these parts. What is read is checked
like what is built by hand: no text is read as a part that no constructor would build.

* `documentOf_writeParts` — the text that is written for some parts is one of their documents.
* `readParts_of_documentOf` — a document is read as its parts.
* `sound_of_readParts` — what is read from a text is sound, whatever the text is.
* `readParts_array_iff` — an array is read element by element, so one refused element refuses it.

Principal result: `readParts_spelled_and_sound` — all of this together.
-/

set_option autoImplicit false

namespace ShellTemplate.Json

open Number Text

/-! ## The written document -/

theorem isHex_hex {n : Nat} (h : n < 0x20) : IsHex n (hex 4 n) := by
  have table : ∀ n < 0x20, (hex 4 n).length = 4 ∧
      ((hex 4 n).mapM hexValue?).map (List.foldl (fun n d => n * 16 + d) 0) = some n := by
    decide +kernel
  obtain ⟨hlength, hvalue⟩ := table n h
  obtain ⟨values, hvalues, hn⟩ := Option.map_eq_some_iff.1 hvalue
  exact ⟨hlength, values, hvalues, hn⟩

theorem charOf_escape (c : Char) : CharOf (escape c) c := by
  unfold escape
  split
  · rename_i h; subst h; exact .short (by decide)
  rename_i hquote
  split
  · rename_i h; subst h; exact .short (by decide)
  rename_i hslash
  split
  · rename_i h; subst h; exact .short (by decide)
  split
  · rename_i h; subst h; exact .short (by decide)
  split
  · rename_i h; subst h; exact .short (by decide)
  split
  · rename_i h
    rw [← Char.ofNat_toNat c, h]
    exact .short (by decide)
  split
  · rename_i h
    rw [← Char.ofNat_toNat c, h]
    exact .short (by decide)
  split
  · rename_i h
    exact .unit (by simp [units, show c.toNat < 0x10000 by omega]) (isHex_hex h)
  · rename_i hvisible
    exact .plain ⟨hquote, hslash⟩ (not_lt.1 hvisible)

theorem stringOf_quoted (cs : List Char) : StringOf (quoted cs) cs := by
  refine .quoted ?_
  induction cs with
  | nil => exact .nil
  | cons c cs ih => exact .cons (charOf_escape c) ih

/-- A text without white space around it. -/
def Spaced.bare (source : List Char) : Spaced := ⟨.none, source, .none⟩

theorem Spaced.text_bare (source : List Char) : (Spaced.bare source).text = source := by
  simp [Spaced.text, Spaced.bare, Gap.none]

theorem recordOf_writeRecord {kind field : String} {Content : List Char → Prop}
    {value : List Char} (content : Content value) :
    RecordOf kind field Content (writeRecord kind field value) := by
  have hrow : writeRecord kind field value = row '{' .none
      (List.map MemberText.text
        [⟨.bare (quoted "kind".toList), .bare (quoted kind.toList)⟩,
          ⟨.bare (quoted field.toList), .bare value⟩]) '}' := by
    have hrecord := writeRecord_append kind field value []
    rw [List.append_nil] at hrecord
    rw [hrecord]
    simp [row, Gap.none, MemberText.text, Spaced.text_bare, commas_cons]
  rw [hrow]
  exact .object .none (.refl _) (stringOf_quoted _) (stringOf_quoted _) (stringOf_quoted _) content
    (by simp) (by simp)

theorem partOf_writePart (p : Part) : PartOf p (writePart p) := by
  cases p with
  | literal a => exact recordOf_writeRecord (recordOf_writeRecord (stringOf_quoted _))
  | placeholder place =>
    refine recordOf_writeRecord ?_
    cases place.ref with
    | name s => exact stringOf_quoted _
    | position n => exact rfl

/-- **The written text of some parts is one of their documents**, with white space behind it too. -/
theorem documentOf_writeParts (parts : List Part) (after : Gap) :
    DocumentOf parts ((writeParts parts).toList ++ after.chars) := by
  have htext : (writeParts parts).toList ++ after.chars =
      arrayText .none .none (parts.map fun p => .bare (writePart p)) after := by
    simp [writeParts, arrayText, row, Gap.none, Function.comp_def, Spaced.text_bare]
  rw [htext]
  refine .array .none .none after ?_
  rw [List.forall₂_map_right_iff, List.forall₂_same]
  exact fun p _ => partOf_writePart p

/-! ## Atoms and parts -/

theorem atomSchema_field (k : AtomKind) : atomSchema.field k ≠ "kind" := by
  cases k <;> decide

theorem partSchema_field (k : PartKind) : partSchema.field k ≠ "kind" := by
  cases k with
  | literal => decide
  | placeholder _ _ => exact (by decide : "ref" ≠ "kind")

section Values

variable {source : List Char}

theorem exists_gives_readAtom (h : ValueOf IsNumber source) : ∃ o, Gives readAtom source o := by
  obtain ⟨o, ho⟩ := Schema.exists_gives_readObject atomSchema_field
    (fun _ _ => exists_gives_readText) h
  exact ⟨_, ho.map Value.atom⟩

theorem gives_readAtom {a : Atom} (h : a.WellFormed) (spelled : AtomOf a source) :
    ValueOf IsNumber source ∧ Gives readAtom source (some (.atom a)) := by
  have hcontent : ∀ source, StringOf source a.content.toList →
      ValueOf IsNumber source ∧ Gives readText source (some (.str a.content)) := by
    intro source string
    have hread := gives_readText string
    rw [String.ofList_toList] at hread
    exact ⟨.string string, hread⟩
  obtain ⟨hvalue, hobject⟩ := Schema.gives_record (s := atomSchema) atomSchema_field
    (fun _ _ => exists_gives_readText) (atomSchema_kind? (.of a)) (build_content h) hcontent spelled
  exact ⟨hvalue, hobject.map Value.atom⟩

theorem exists_gives_content (k : PartKind) (source : List Char) (h : ValueOf IsNumber source) :
    ∃ o, Gives (partSchema.read k) source o := by
  cases k with
  | literal => exact exists_gives_readAtom h
  | placeholder _ _ => exact exists_gives_readRef h

theorem exists_gives_part (h : ValueOf IsNumber source) :
    ∃ o, Gives partSchema.readObject source o :=
  Schema.exists_gives_readObject partSchema_field exists_gives_content h

theorem isWholePart_digits (n : Nat) : IsWholePart (digits n) :=
  ⟨⟨digits_ne_nil n, fun _ => digits_isDigit⟩, head_digits⟩

theorem ofValue_toValue {ref : Ref} (h : ref.WellFormed) : Ref.ofValue ref.toValue = .ok ref := by
  cases ref with
  | name s =>
    have hne : s ≠ "" := h
    simp [Ref.toValue, Ref.ofValue, hne]
  | position n => simp [Ref.toValue, Ref.ofValue]

theorem gives_readRef {ref : Ref}
    (short : ∀ n, ref = .position n → (digits n).length ≤ maxDigits) (spelled : RefOf ref source) :
    ValueOf IsNumber source ∧ Gives readRef source (some ref.toValue) := by
  cases ref with
  | name s =>
    have hread := gives_readRef_string spelled
    rw [String.ofList_toList] at hread
    exact ⟨.string spelled, hread⟩
  | position n =>
    obtain rfl : source = digits n := spelled
    have hform := IsNumber.mk (.inl rfl) (isWholePart_digits n) (.inl rfl) (.inl rfl)
    refine ⟨.number (by simpa using hform), fun path gap rest ends => ?_⟩
    obtain ⟨d, ds, hd, hdigit⟩ := exists_digits_eq_cons n
    have hnumber := number?_spelled (.inl rfl) (isWholePart_digits n) (.inl rfl) (.inl rfl) ends
    have hread := readRef_gap_cons (isSpace_eq_false_of_number (.inr hdigit))
      (by rintro rfl; exact absurd hdigit (by decide)) path gap (ds ++ rest)
    rw [← List.cons_append, ← hd] at hread
    simp only [List.nil_append, List.append_nil] at hnumber
    rw [hread, hnumber]
    simp [wholeNumber_digits, Nat.not_lt.2 (short n rfl), Except.toOption, Ref.toValue]

/-- **A part is read from each way to write it.** -/
theorem gives_part {p : Part} (h : p.WellFormed)
    (short : ∀ n, p.ref? = some (.position n) → (digits n).length ≤ maxDigits)
    (spelled : PartOf p source) :
    ValueOf IsNumber source ∧ Gives partSchema.readObject source (some p) := by
  cases p with
  | literal a =>
    exact Schema.gives_record (s := partSchema) (k := .literal) (v := .atom a) partSchema_field
      exists_gives_content (partSchema_kind? _) rfl (fun _ => gives_readAtom h) spelled
  | placeholder place =>
    have hbuild : Part.placeholderOf place.verbatim place.list place.ref.toValue =
        .ok (.placeholder place) := by
      rw [Part.placeholderOf, ofValue_toValue h]
      rfl
    exact Schema.gives_record (s := partSchema) (k := .placeholder place.verbatim place.list)
      partSchema_field exists_gives_content (partSchema_kind? _) hbuild
      (fun _ => gives_readRef fun n hn => short n (congrArg some hn)) spelled

end Values

/-! ## Arrays -/

/-- What the elements of an array are read as, each for itself. -/
def ItemsGive (items : List Spaced) (given : List (Option Part)) : Prop :=
  List.Forall₂ (fun item o =>
    ValueOf IsNumber item.source ∧ Gives partSchema.readObject item.source o) items given

/-- **The elements of an array are read one after the other**, each as for itself. -/
theorem readElements_upcoming {items : List Spaced} {given : List (Option Part)}
    (h : ItemsGive items given) :
    ∀ (fuel index : Nat) (first : Bool) (gap : Gap) (rest : List Char), items.length < fuel →
      (readElements fuel index first
        (upcoming first gap (items.map Spaced.text) (']' :: rest))).toOption =
          (given.mapM id).map (·, rest) := by
  induction h with
  | nil =>
    intro fuel index first gap rest hfuel
    obtain ⟨fuel, rfl⟩ := Nat.exists_eq_succ_of_ne_zero (Nat.ne_zero_of_lt hfuel)
    rw [List.map_nil, readElements, element?_upcoming_nil]
    rfl
  | @cons item o items given hitem _ ih =>
    intro fuel index first gap rest hfuel
    obtain ⟨fuel, rfl⟩ := Nat.exists_eq_succ_of_ne_zero (Nat.ne_zero_of_lt hfuel)
    obtain ⟨c, tail, starts⟩ := hitem.1.opening
    have hread := hitem.2 [.index index] .none _
      (ends_upcoming (.inl rfl) item.after (items.map Spaced.text) rest)
    simp only [Gap.none, List.nil_append] at hread
    have hitems := ih fuel (index + 1) false item.after rest (Nat.lt_of_succ_lt_succ hfuel)
    rw [List.map_cons, readElements, element?_upcoming starts.cons starts.visible starts.inside,
      except_toOption_bind, toOption_formed, Option.bind_some, List.mapM_cons]
    simp only
    rw [except_toOption_bind, hread]
    cases o with
    | none => rfl
    | some p =>
      simp only [Option.map_some, Option.bind_some]
      rw [except_toOption_bind, hitems]
      cases given.mapM id <;> rfl

/-- An array is read as what its elements are read as. -/
theorem readParts_arrayText (before lead after : Gap) {items : List Spaced}
    {given : List (Option Part)} (h : ItemsGive items given) :
    (readParts (String.ofList (arrayText before lead items after))).toOption = given.mapM id := by
  have hfuel := length_lt_upcoming lead (items.map Spaced.text) ']' after.chars
  rw [List.length_map] at hfuel
  have hafter : skipSpace after.chars = [] := by
    simpa [skipSpace] using skipSpace_gap after []
  rw [readParts, String.toList_ofList, arrayText, row_append, skipSpace_gap_cons before (by decide)]
  simp only
  rw [except_toOption_bind, readElements_upcoming h _ 0 true lead after.chars hfuel]
  cases given.mapM id with
  | none => rfl
  | some parts => simp [hafter, Except.toOption]

/-- **A document is read as its parts**, however it is spelled. -/
theorem readParts_of_documentOf {parts : List Part} (h : ∀ p ∈ parts, p.WellFormed)
    (short : ∀ p ∈ parts, ∀ n, p.ref? = some (.position n) → (digits n).length ≤ maxDigits)
    {text : List Char} (spelled : DocumentOf parts text) :
    readParts (String.ofList text) = .ok parts := by
  obtain @⟨items, before, lead, after, each⟩ := spelled
  have hitems : ItemsGive items (parts.map some) := by
    induction each with
    | nil => exact .nil
    | cons hpart _ ih =>
      rw [List.forall_mem_cons] at h short
      exact .cons (gives_part h.1 short.1 hpart) (ih h.2 short.2)
  have hparts : (parts.map some).mapM id = some parts := by
    rw [mapM_eq_some_iff, List.forall₂_map_left_iff, List.forall₂_same]
    exact fun _ _ => rfl
  rw [← except_toOption_eq_some, readParts_arrayText before lead after hitems, hparts]

/-- The text of an array of one element. -/
def single (source : List Char) : String := String.ofList ('[' :: (source ++ [']']))

/-- **An array is read exactly as its elements are, each alone**: if one of them is refused, so is
the array. -/
theorem readParts_array_iff (before lead after : Gap) {items : List Spaced}
    (each : ∀ item ∈ items, ValueOf IsNumber item.source) (parts : List Part) :
    readParts (String.ofList (arrayText before lead items after)) = .ok parts ↔
      List.Forall₂ (fun item p => readParts (single item.source) = .ok [p]) items parts := by
  obtain ⟨given, hgiven⟩ : ∃ given, ItemsGive items given := by
    refine exists_forall₂_iff.2 fun item hitem => ?_
    obtain ⟨o, ho⟩ := exists_gives_part (each item hitem)
    exact ⟨o, each item hitem, ho⟩
  rw [← except_toOption_eq_some, readParts_arrayText before lead after hgiven, mapM_eq_some_iff]
  clear each
  induction hgiven generalizing parts with
  | nil => simp
  | @cons item o items given hitem _ ih =>
    have halone : (readParts (single item.source)).toOption = [o].mapM id := by
      have hread := @readParts_arrayText .none .none .none [.bare item.source] [o]
        (.cons hitem .nil)
      simpa [single, arrayText, row, Gap.none, commas, Spaced.text, Spaced.bare] using hread
    cases parts with
    | nil => simp
    | cons p parts =>
      rw [List.forall₂_cons, List.forall₂_cons, ih, ← except_toOption_eq_some, halone,
        mapM_eq_some_iff]
      simp

/-! ## What is read is sound -/

/-- No blank stands at either end of a text. -/
def Unpadded (cs : List Char) : Prop :=
  (∀ c ∈ cs.head?, isBlank c = false) ∧ ∀ c ∈ cs.getLast?, isBlank c = false

/-- A part as its constructors check it: an atom of one of the three kinds, of which a number's text
denotes a finite decimal and is not padded, or a placeholder for a name that is not empty or for a
position. -/
inductive Sound : Part → Prop where
  | identifier (name : String) : Sound (.literal (.identifier name))
  | text (value : String) : Sound (.literal (.text value))
  | number {text : String} {n : Numeral} (bare : Unpadded text.toList)
    (denotes : Decimal.ofChars? text.toList = some (.finite n)) : Sound (.literal (.number text))
  | name (verbatim list : Bool) {s : String} (some : s ≠ "") :
    Sound (.placeholder ⟨verbatim, list, .name s⟩)
  | position (verbatim list : Bool) (n : Nat) : Sound (.placeholder ⟨verbatim, list, .position n⟩)

theorem head_trimLeft (cs : List Char) : ∀ c ∈ (trimLeft cs).head?, isBlank c = false := by
  intro c hc
  have hhead := List.head?_dropWhile_not isBlank cs
  rw [trimLeft] at hc
  rw [hc] at hhead
  simpa using hhead

/-- What trimming leaves as it is has no blank at either end. -/
theorem unpadded_of_trim {cs : List Char} (h : trim cs = cs) : Unpadded cs := by
  have hlength : ∀ ds : List Char, (trimLeft ds).length ≤ ds.length := fun ds =>
    (List.dropWhile_sublist isBlank).length_le
  have hback := hlength (trimLeft cs).reverse
  have hwhole : (trim cs).length = cs.length := by rw [h]
  rw [trim, List.length_reverse] at hwhole
  have hfront : trimLeft cs = cs := by
    refine (List.dropWhile_sublist isBlank).eq_of_length_le ?_
    rw [List.length_reverse] at hback
    exact hwhole ▸ hback
  constructor
  · rw [← hfront]
    exact head_trimLeft cs
  · intro c hc
    rw [← h, trim, List.getLast?_reverse] at hc
    exact head_trimLeft _ c hc

theorem sound_number {digits : String} (h : Number.isNumeral digits = true) :
    Sound (.literal (.number digits)) := by
  rw [isNumeral, Bool.and_eq_true, beq_iff_eq, Option.any_eq_true] at h
  obtain ⟨htrim, d, hd, hfinite⟩ := h
  cases d with
  | finite n => exact .number (unpadded_of_trim htrim) hd
  | infinite _ => cases hfinite
  | nan _ _ _ => cases hfinite

/-- A checked atom makes a sound literal. -/
theorem sound_of_build {k : AtomKind} {v : Value} {a : Atom} (h : k.build v = .ok a) :
    Sound (.literal a) := by
  cases k with
  | identifier => cases v <;> cases h; exact .identifier _
  | text => cases v <;> cases h; exact .text _
  | number =>
    cases v with
    | str s =>
      rw [AtomKind.build, Atom.numberOf] at h
      split at h
      · rename_i hnumber
        obtain ⟨rfl, hnumeral⟩ := Atom.number?_eq_some hnumber
        cases h
        exact sound_number hnumeral
      · cases h
    | _ => cases h

theorem sound_of_placeholderOf {verbatim list : Bool} {v : Value} {p : Part}
    (h : Part.placeholderOf verbatim list v = .ok p) : Sound p := by
  obtain ⟨ref, href, rfl⟩ := except_map_eq_ok.1 h
  cases v with
  | str s =>
    rw [Ref.ofValue] at href
    split at href
    · cases href
    · rename_i hne
      cases href
      exact .name verbatim list (by simpa using hne)
  | int n =>
    rw [Ref.ofValue] at href
    split at href
    · cases href
    · cases href
      exact .position verbatim list _
  | _ => cases href

namespace Schema

variable {κ α : Type} {s : Schema κ α} {k : κ} {a : α} {path : List Step}

/-- What the members of an object are read as was built from a value that was read for its kind. -/
theorem built_of_readMembers {fuel : Nat} {first : Bool} {value : Option Value}
    {cs rest : List Char} (h : s.readMembers k path fuel first value cs = .ok (a, rest))
    {P : Value → Prop} (hvalue : ∀ v ∈ value, P v)
    (hread : ∀ path cs v rest, s.read k path cs = .ok (v, rest) → P v) :
    ∃ v, P v ∧ s.build k v = .ok a := by
  induction fuel generalizing first value cs with
  | zero => cases h
  | succ fuel ih =>
    obtain ⟨m, -, h⟩ := except_bind_eq_ok.1 h
    cases m with
    | close behind =>
      cases value with
      | none => cases h
      | some v =>
        simp only at h
        split at h
        · rename_i hbuild
          cases h
          exact ⟨v, hvalue v rfl, hbuild⟩
        · cases h
    | member name behind =>
      simp only at h
      split at h
      · obtain ⟨⟨v, behind⟩, hv, h⟩ := except_bind_eq_ok.1 h
        refine ih h ?_
        rintro w ⟨⟩
        exact hread _ _ _ _ hv
      split at h
      · obtain ⟨⟨other, behind⟩, -, h⟩ := except_bind_eq_ok.1 h
        simp only at h
        split at h
        · exact ih h hvalue
        · cases h
      · obtain ⟨behind, -, h⟩ := except_bind_eq_ok.1 h
        exact ih h hvalue

/-- **What an object is read as was built by its checked constructor.** -/
theorem built_of_readObject {cs rest : List Char} (h : s.readObject path cs = .ok (a, rest))
    {P : κ → Value → Prop}
    (hread : ∀ k path cs v rest, s.read k path cs = .ok (v, rest) → P k v) :
    ∃ k v, P k v ∧ s.build k v = .ok a := by
  unfold readObject at h
  split at h
  · obtain ⟨⟨k, behind⟩, -, h⟩ := except_bind_eq_ok.1 h
    cases behind with
    | some behind =>
      exact ⟨k, built_of_readMembers h (by simp) fun path cs v rest => hread k path cs v rest⟩
    | none =>
      exact ⟨k, built_of_readMembers h (by simp) fun path cs v rest => hread k path cs v rest⟩
  · cases h

end Schema

theorem sound_of_readAtom {path : List Step} {cs rest : List Char} {v : Value}
    (h : readAtom path cs = .ok (v, rest)) : ∃ a, v = .atom a ∧ Sound (.literal a) := by
  obtain ⟨⟨a, behind⟩, hobject, h⟩ := except_map_eq_ok.1 h
  cases h
  obtain ⟨k, v, -, hbuild⟩ := Schema.built_of_readObject hobject
    (P := fun _ _ => True) fun _ _ _ _ _ _ => trivial
  exact ⟨a, rfl, sound_of_build hbuild⟩

/-- **A part that is read is sound.** -/
theorem sound_of_readObject {path : List Step} {cs rest : List Char} {p : Part}
    (h : partSchema.readObject path cs = .ok (p, rest)) : Sound p := by
  obtain ⟨k, v, hv, hbuild⟩ := Schema.built_of_readObject h
    (P := fun k v => k = .literal → ∃ a, v = .atom a ∧ Sound (.literal a))
    fun k path cs v rest hread => by
      rintro rfl
      exact sound_of_readAtom hread
  cases k with
  | literal =>
    obtain ⟨a, rfl, hsound⟩ := hv rfl
    cases hbuild
    exact hsound
  | placeholder verbatim list => exact sound_of_placeholderOf hbuild

theorem sound_of_readElements {fuel index : Nat} {first : Bool} {cs rest : List Char}
    {parts : List Part} (h : readElements fuel index first cs = .ok (parts, rest)) :
    ∀ p ∈ parts, Sound p := by
  induction fuel generalizing index first cs parts rest with
  | zero => cases h
  | succ fuel ih =>
    obtain ⟨element, -, h⟩ := except_bind_eq_ok.1 h
    cases element with
    | close behind => cases h; exact List.forall_mem_nil _
    | element behind =>
      obtain ⟨⟨p, behind⟩, hpart, h⟩ := except_bind_eq_ok.1 h
      obtain ⟨⟨others, behind⟩, hothers, h⟩ := except_bind_eq_ok.1 h
      cases h
      rw [List.forall_mem_cons]
      exact ⟨sound_of_readObject hpart, ih hothers⟩

/-- **Whatever a text is, the parts that are read from it are sound.** -/
theorem sound_of_readParts {text : String} {parts : List Part} (h : readParts text = .ok parts) :
    ∀ p ∈ parts, Sound p := by
  unfold readParts at h
  split at h
  · obtain ⟨⟨read, behind⟩, helements, h⟩ := except_bind_eq_ok.1 h
    simp only at h
    split at h
    · cases h
      exact sound_of_readElements helements
    · cases h
  · cases h

/-! ## Reading a document -/

/-- **Reading hangs on what a document says, and checks all of it.** Every document of parts that
their constructors accept is read as these parts, the written one among them; what is read from any
text at all is sound; and an array of any values is read exactly as its elements are, each alone, so
that one refused element refuses all. -/
theorem readParts_spelled_and_sound :
    (∀ parts : List Part, (∀ p ∈ parts, p.WellFormed) →
      (∀ p ∈ parts, ∀ n, p.ref? = some (.position n) → (digits n).length ≤ maxDigits) →
      DocumentOf parts (writeParts parts).toList ∧
        ∀ text, DocumentOf parts text → readParts (String.ofList text) = .ok parts) ∧
    (∀ (text : String) (parts : List Part), readParts text = .ok parts → ∀ p ∈ parts, Sound p) ∧
    ∀ (before lead after : Gap) (items : List Spaced),
      (∀ item ∈ items, ValueOf IsNumber item.source) → ∀ parts,
        (readParts (String.ofList (arrayText before lead items after)) = .ok parts ↔
          List.Forall₂ (fun item p => readParts (single item.source) = .ok [p]) items parts) :=
  ⟨fun parts h short => ⟨by simpa [Gap.none] using documentOf_writeParts parts .none,
      fun _ => readParts_of_documentOf h short⟩,
    fun _ _ => sound_of_readParts, fun before lead after _ => readParts_array_iff before lead after⟩

/-- One space. -/
def space : Gap := ⟨[' '], List.all_eq_true.1 rfl⟩

/-- A number and a place for a list. -/
def numberAndPlace : List Part :=
  [.literal (.number "-1.50"), .placeholder ⟨true, true, .position 0⟩]

/-- The name of the member for the kind, with an escape in it. -/
def escapedKind : List Char := "\"k\\u0069nd\"".toList

theorem stringOf_escapedKind : StringOf escapedKind "kind".toList := by
  have hescape : CharOf ['\\', 'u', '0', '0', '6', '9'] 'i' :=
    .unit rfl ⟨rfl, [0, 0, 6, 9], by decide, rfl⟩
  have hbody : BodyOf ['k', '\\', 'u', '0', '0', '6', '9', 'n', 'd'] ['k', 'i', 'n', 'd'] :=
    .cons (.plain (by decide) (by decide)) (.cons hescape
      (.cons (.plain (by decide) (by decide)) (.cons (.plain (by decide) (by decide)) .nil)))
  have hsource : escapedKind =
      '"' :: (['k', '\\', 'u', '0', '0', '6', '9', 'n', 'd'] ++ ['"']) := by decide
  have htext : "kind".toList = ['k', 'i', 'n', 'd'] := by decide
  rw [hsource, htext]
  exact .quoted hbody

/-- The text of the number, a member that is passed over, and the kind. -/
def numberMembers : List MemberText :=
  [⟨.bare (quoted "text".toList), .bare (quoted "-1.50".toList)⟩,
    ⟨.bare (quoted "x".toList), ⟨space, "null".toList, .none⟩⟩,
    ⟨.bare escapedKind, .bare (quoted "number".toList)⟩]

/-- The two parts with their kinds behind their contents. -/
def respelled : List Spaced :=
  [.bare (row '{' .none (List.map MemberText.text
      [⟨.bare (quoted "atom".toList),
          ⟨.none, row '{' space (numberMembers.map MemberText.text) '}', space⟩⟩,
        ⟨.bare (quoted "kind".toList), .bare (quoted "literal".toList)⟩]) '}'),
    .bare (row '{' .none (List.map MemberText.text
      [⟨.bare (quoted "ref".toList), .bare ['0']⟩,
        ⟨.bare (quoted "kind".toList), .bare (quoted "escaped-list".toList)⟩]) '}')]

theorem text_respelled : arrayText .none space respelled space =
    ("[ \x7b\"atom\":\x7b \"text\":\"-1.50\",\"x\": null,\"k\\u0069nd\":\"number\"\x7d ," ++
      "\"kind\":\"literal\"\x7d,\x7b\"ref\":0,\"kind\":\"escaped-list\"\x7d] ").toList := by
  decide +kernel

theorem partsOf_respelled :
    List.Forall₂ (fun part item => PartOf part item.source) numberAndPlace respelled := by
  have hatom :
      AtomOf (.number "-1.50") (row '{' space (numberMembers.map MemberText.text) '}') := by
    have horder := @List.perm_middle _ ⟨.bare escapedKind, .bare (quoted "number".toList)⟩
      (numberMembers.take 2) []
    refine .object space horder stringOf_escapedKind (stringOf_quoted _) (stringOf_quoted _)
      (stringOf_quoted _) ?_ ?_
    · intro m hm
      obtain rfl := List.mem_singleton.1 hm
      exact ⟨_, stringOf_quoted "x".toList, by decide, by decide⟩
    · intro m hm
      obtain rfl := List.mem_singleton.1 hm
      exact ValueOf.word (by decide : "null" ∈ ["null", "true", "false"])
  refine .cons ?_ (.cons ?_ .nil)
  · exact .object .none (.swap _ _ _) (stringOf_quoted _) (stringOf_quoted _) (stringOf_quoted _)
      hatom (by simp) (by simp)
  · exact .object .none (.swap _ _ _) (stringOf_quoted _) (stringOf_quoted _) (stringOf_quoted _)
      rfl (by simp) (by simp)

/-- The number and the place in an array with a third element, which is no part. -/
def withNull : List Spaced := respelled ++ [.bare "null".toList]

/-- The respelled document is read as the two parts, which are sound, and with a further element
that is no part it is refused. -/
theorem readParts_respelled :
    readParts ("[ \x7b\"atom\":\x7b \"text\":\"-1.50\",\"x\": null,\"k\\u0069nd\":\"number\"\x7d ," ++
      "\"kind\":\"literal\"\x7d,\x7b\"ref\":0,\"kind\":\"escaped-list\"\x7d] ") = .ok numberAndPlace ∧
    (∀ p ∈ numberAndPlace, Sound p) ∧
    ∀ parts, readParts (String.ofList (arrayText .none space withNull space)) ≠ .ok parts := by
  have h : ∀ p ∈ numberAndPlace, p.WellFormed := by decide
  have short : ∀ p ∈ numberAndPlace, ∀ n, p.ref? = some (.position n) →
      (digits n).length ≤ maxDigits := by
    intro p hp n hn
    simp only [numberAndPlace, List.mem_cons, List.not_mem_nil, or_false] at hp
    rcases hp with rfl | rfl <;> cases hn
    decide
  have hread := (readParts_spelled_and_sound.1 numberAndPlace h short).2 _
    (.array .none space space partsOf_respelled)
  rw [text_respelled, String.ofList_toList] at hread
  refine ⟨hread, readParts_spelled_and_sound.2.1 _ _ hread, fun parts hparts => ?_⟩
  have each : ∀ item ∈ withNull, ValueOf IsNumber item.source := by
    obtain ⟨hnumber, hplaces⟩ := List.forall₂_cons.1 partsOf_respelled
    obtain ⟨hplace, -⟩ := List.forall₂_cons.1 hplaces
    simp only [withNull, respelled, List.cons_append, List.nil_append, List.forall_mem_cons]
    exact ⟨(gives_part (h _ (by decide)) (short _ (by decide)) hnumber).1,
      (gives_part (h _ (by decide)) (short _ (by decide)) hplace).1, .word (by decide),
      List.forall_mem_nil _⟩
  have hitems := (readParts_spelled_and_sound.2.2 _ _ _ _ each parts).1 hparts
  obtain ⟨_, _, -, hitems, -⟩ := List.forall₂_cons_left_iff.1 hitems
  obtain ⟨_, _, -, hitems, -⟩ := List.forall₂_cons_left_iff.1 hitems
  obtain ⟨p, _, hnull, -, -⟩ := List.forall₂_cons_left_iff.1 hitems
  have hrefused : readParts (single "null".toList) =
      .error ⟨.mismatch "object" (some "null"), [.index 0]⟩ := rfl
  exact absurd (hrefused.symm.trans hnull) nofun

end ShellTemplate.Json
