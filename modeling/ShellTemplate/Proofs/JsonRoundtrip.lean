import ShellTemplate.Json.Parts
import ShellTemplate.Proofs.AsciiRuns
import ShellTemplate.Proofs.JsonStrings

/-!
# Parts survive their JSON form

A written list of parts is read back as the same parts. Reading is streamed, so each lemma is about
what was written followed by any rest:

* `Schema.readObject_writeRecord` — one object, for any schema: if the value of its member is read
  back and builds the object, so is the whole record. Atoms and parts are both instances.
* `partObject_writePart` — one part, literal or placeholder.
* `readElements_writePart` — the parts of an array, one after the other.

Principal result: `readParts_writeParts` — for well-formed parts whose positions have no more digits
than are read, the JSON form loses nothing.
-/

set_option autoImplicit false

namespace ShellTemplate.Json

open Number Text

/-! ## Tokens -/

theorem skipSpace_cons {c : Char} (h : isSpace c = false) (rest : List Char) :
    skipSpace (c :: rest) = c :: rest := by
  simp [skipSpace, h]

theorem quoted_append (cs rest : List Char) :
    quoted cs ++ rest = '"' :: (cs.flatMap escape ++ '"' :: rest) := by
  simp [quoted]

theorem memberName?_quoted (name rest : List Char) :
    memberName? (quoted name ++ ':' :: rest) = some (.member name rest) := by
  rw [quoted_append, memberName?, readBody_quoted]
  simp [skipSpace_cons (show isSpace ':' = false by decide)]

theorem member?_first (name rest : List Char) :
    member? true (quoted name ++ ':' :: rest) = some (.member name rest) := by
  have hname := memberName?_quoted name rest
  rw [quoted_append] at hname ⊢
  simp [member?, skipSpace_cons (show isSpace '"' = false by decide), hname]

theorem member?_next (name rest : List Char) :
    member? false (',' :: (quoted name ++ ':' :: rest)) = some (.member name rest) := by
  have hname := memberName?_quoted name rest
  rw [quoted_append] at hname ⊢
  simp [member?, skipSpace_cons (show isSpace '"' = false by decide),
    skipSpace_cons (show isSpace ',' = false by decide), hname]

theorem member?_close (first : Bool) (rest : List Char) :
    member? first ('}' :: rest) = some (.close rest) := by
  simp [member?, skipSpace_cons (show isSpace '}' = false by decide)]

theorem readText_quoted (path : List Step) (cs rest : List Char) :
    readText path (quoted cs ++ rest) = .ok (.str (String.ofList cs), rest) := by
  rw [quoted_append, readText, skipSpace_cons (by decide)]
  simp [readBody_quoted, formed, Except.map]

theorem readKind_quoted (path : List Step) (cs rest : List Char) :
    readKind path (quoted cs ++ rest) = .ok (String.ofList cs, rest) := by
  rw [quoted_append, readKind, skipSpace_cons (by decide)]
  simp [readBody_quoted, formed, Except.map]

/-! ## Objects -/

/-- A record with what follows it, member by member. -/
theorem writeRecord_append (kind field : String) (value rest : List Char) :
    writeRecord kind field value ++ rest =
      '{' :: (quoted "kind".toList ++ ':' :: (quoted kind.toList ++
        ',' :: (quoted field.toList ++ ':' :: (value ++ '}' :: rest)))) := by
  have hunfolded : writeRecord kind field value =
      '{' :: (quoted "kind".toList ++ [':']) ++ quoted kind.toList ++
        ',' :: quoted field.toList ++ ':' :: value ++ ['}'] := rfl
  rw [hunfolded]
  simp only [List.cons_append, List.append_assoc, List.nil_append]

namespace Schema

variable {κ α : Type} {s : Schema κ α} {k : κ}

theorem readKind_known (hk : s.kind? (s.name k) = some k) (path : List Step) (rest : List Char) :
    s.readKind path (quoted (s.name k).toList ++ rest) = .ok (k, rest) := by
  simp [readKind, readKind_quoted, hk, bind, Except.bind]

/-- The kind is found where it is written, as the first member. -/
theorem findKind_first (hk : s.kind? (s.name k) = some k) (path : List Step) (fuel : Nat)
    (rest : List Char) :
    s.findKind path (fuel + 1) true
      (quoted "kind".toList ++ ':' :: (quoted (s.name k).toList ++ rest)) = .ok (k, some rest) := by
  simp [findKind, member?_first, readKind_known hk, formed, bind, Except.bind, pure, Except.pure]

/-- The members behind the kind are the one that the object is built from. -/
theorem readMembers_field {a : α} {v : Value} {value rest : List Char} {path : List Step}
    (hread : s.read k (.field (s.field k) :: path) (value ++ '}' :: rest) = .ok (v, '}' :: rest))
    (hbuild : s.build k v = .ok a) (fuel : Nat) :
    s.readMembers k path (fuel + 2) false none
      (',' :: (quoted (s.field k).toList ++ ':' :: (value ++ '}' :: rest))) = .ok (a, rest) := by
  simp [readMembers, member?_next, member?_close, hread, hbuild, formed, bind, Except.bind]

/-- **A written record is read back**, if the value of its member is. -/
theorem readObject_writeRecord (hk : s.kind? (s.name k) = some k) {a : α} {v : Value}
    {value rest : List Char} {path : List Step}
    (hread : s.read k (.field (s.field k) :: path) (value ++ '}' :: rest) = .ok (v, '}' :: rest))
    (hbuild : s.build k v = .ok a) :
    s.readObject path (writeRecord (s.name k) (s.field k) value ++ rest) = .ok (a, rest) := by
  obtain ⟨fuel, hfuel⟩ : ∃ fuel, (quoted "kind".toList ++ ':' :: (quoted (s.name k).toList ++
      ',' :: (quoted (s.field k).toList ++ ':' :: (value ++ '}' :: rest)))).length = fuel + 1 :=
    Nat.exists_eq_succ_of_ne_zero (by simp)
  rw [writeRecord_append, readObject, skipSpace_cons (by decide)]
  simp only [hfuel, findKind_first hk, readMembers_field hread hbuild, bind, Except.bind]

end Schema

/-! ## Atoms -/

theorem atomSchema_kind? (k : AtomKind) : atomSchema.kind? (atomSchema.name k) = some k := by
  cases k <;> decide

theorem build_content {a : Atom} (h : a.WellFormed) :
    (AtomKind.of a).build (.str a.content) = .ok a := by
  cases a with
  | identifier s => rfl
  | text s => rfl
  | number s =>
    have hnum : isNumeral s = true := h
    simp [AtomKind.of, AtomKind.build, Atom.content, Atom.numberOf, Atom.number?, hnum]

theorem readAtom_writeAtom {a : Atom} (h : a.WellFormed) (path : List Step) (rest : List Char) :
    readAtom path (writeAtom a ++ rest) = .ok (.atom a, rest) := by
  have hread : ∀ path, readText path (quoted a.content.toList ++ '}' :: rest) =
      .ok (.str a.content, '}' :: rest) := by
    intro path
    rw [readText_quoted, String.ofList_toList]
  have hobject : atomSchema.readObject path (writeAtom a ++ rest) = .ok (a, rest) :=
    Schema.readObject_writeRecord (atomSchema_kind? _) (hread _) (build_content h)
  rw [readAtom, hobject]
  rfl

/-! ## References -/

/-- The digits of a position are a whole number for the scanner. -/
theorem number?_digits (n : Nat) (rest : List Char) :
    number? (digits n ++ '}' :: rest) = some (⟨digits n, true⟩, '}' :: rest) := by
  have stop := @forall_head_cons Char Char.isDigit '}' false rfl rest
  have htake := @takeWhile_run Char Char.isDigit (digits n) _ (fun _ => digits_isDigit) stop
  have hdrop := @dropWhile_run Char Char.isDigit (digits n) _ (fun _ => digits_isDigit) stop
  have hlead : ¬ ((digits n).head? = some '0' ∧ 1 < (digits n).length) := by
    rintro ⟨hzero, hlong⟩
    rw [head_digits hzero] at hlong
    exact absurd hlong (by decide)
  obtain ⟨d, ds, hd, hdigit⟩ := exists_digits_eq_cons n
  unfold number?
  split
  rename_i minus unsigned hsign
  split at hsign
  · rename_i tail hcs
    rw [hd] at hcs
    cases hcs
    exact absurd hdigit (by decide)
  · cases hsign
    simp [htake, hdrop, hlead, digits_ne_nil, fraction?, exponent?]

theorem wholeNumber_digits (n : Nat) : wholeNumber (digits n) = n := by
  obtain ⟨d, ds, hd, hdigit⟩ := exists_digits_eq_cons n
  unfold wholeNumber
  split
  · rename_i hcs
    rw [hd] at hcs
    cases hcs
    exact absurd hdigit (by decide)
  · rw [ofDigits_digits]

theorem readRef_name (path : List Step) (s : String) (rest : List Char) :
    readRef path (writeRef (.name s) ++ rest) = .ok (.str s, rest) := by
  rw [writeRef, quoted_append, readRef, skipSpace_cons (by decide)]
  simp [readBody_quoted, formed, Except.map]

theorem readRef_position (path : List Step) {n : Nat} (short : (digits n).length ≤ maxDigits)
    (rest : List Char) :
    readRef path (writeRef (.position n) ++ '}' :: rest) = .ok (.int n, '}' :: rest) := by
  obtain ⟨d, ds, hd, hdigit⟩ := exists_digits_eq_cons n
  have hspace : isSpace d = false := by
    by_contra h
    rw [Bool.not_eq_false] at h
    simp only [isSpace, Bool.or_eq_true, decide_eq_true_eq] at h
    rcases h with ((rfl | rfl) | rfl) | rfl <;> exact absurd hdigit (by decide)
  have hskip : skipSpace (digits n ++ '}' :: rest) = digits n ++ '}' :: rest := by
    rw [hd, List.cons_append, skipSpace_cons hspace]
  rw [writeRef, readRef, hskip]
  split
  · rename_i hcs
    rw [hd] at hcs
    cases hcs
    exact absurd hdigit (by decide)
  · simp [number?_digits, wholeNumber_digits, Nat.not_lt.2 short]

/-- A reference is read as a value that gives the reference again. -/
theorem readRef_writeRef {r : Ref} (h : r.WellFormed)
    (short : ∀ n, r = .position n → (digits n).length ≤ maxDigits) (path : List Step)
    (rest : List Char) :
    ∃ v, readRef path (writeRef r ++ '}' :: rest) = .ok (v, '}' :: rest) ∧
      Ref.ofValue v = .ok r := by
  cases r with
  | name s =>
    have hne : s ≠ "" := h
    have hs : s.isEmpty = false := by simpa using hne
    exact ⟨.str s, readRef_name path s _, by simp [Ref.ofValue, hs]⟩
  | position n =>
    exact ⟨.int n, readRef_position path (short n rfl) rest, by simp [Ref.ofValue]⟩

/-! ## Parts -/

theorem partSchema_kind? (k : PartKind) : partSchema.kind? (partSchema.name k) = some k := by
  rcases k with _ | ⟨_ | _, _ | _⟩ <;> decide

theorem partObject_writePart {p : Part} (h : p.WellFormed)
    (short : ∀ n, p.ref? = some (.position n) → (digits n).length ≤ maxDigits) (path : List Step)
    (rest : List Char) : partSchema.readObject path (writePart p ++ rest) = .ok (p, rest) := by
  cases p with
  | literal a =>
    exact Schema.readObject_writeRecord (partSchema_kind? .literal)
      (v := .atom a) (readAtom_writeAtom h _ _) rfl
  | placeholder place =>
    obtain ⟨v, hread, hvalue⟩ := readRef_writeRef h (fun n hn => short n (congrArg some hn))
      (.field "ref" :: path) rest
    have hbuild : Part.placeholderOf place.verbatim place.list v = .ok (.placeholder place) := by
      rw [Part.placeholderOf, hvalue]
      rfl
    exact Schema.readObject_writeRecord
      (partSchema_kind? (.placeholder place.verbatim place.list)) hread hbuild

theorem writePart_eq_cons (p : Part) : ∃ cs, writePart p = '{' :: cs := by
  cases p <;> exact ⟨_, rfl⟩

/-! ## Arrays -/

theorem commas_cons (text : List Char) (texts : List (List Char)) :
    commas (text :: texts) = text ++ texts.flatMap (',' :: ·) := by
  induction texts generalizing text with
  | nil => simp [commas]
  | cons t texts ih =>
    have htail := ih t
    unfold commas at htail ⊢
    rw [List.intercalate_cons_cons, htail]
    simp

theorem element?_close (first : Bool) (rest : List Char) :
    element? first (']' :: rest) = some (.close rest) := by
  simp [element?, skipSpace_cons (show isSpace ']' = false by decide)]

theorem element?_first (rest : List Char) :
    element? true ('{' :: rest) = some (.element ('{' :: rest)) := by
  simp [element?, skipSpace_cons (show isSpace '{' = false by decide)]

theorem element?_next (rest : List Char) :
    element? false (',' :: '{' :: rest) = some (.element ('{' :: rest)) := by
  simp [element?, skipSpace_cons (show isSpace '{' = false by decide),
    skipSpace_cons (show isSpace ',' = false by decide)]

section Elements

variable {fuel index : Nat}

/-- One element is read, and then the ones behind it. -/
theorem readElements_cons {p : Part} {parts : List Part} {first : Bool} {cs rest behind : List Char}
    (hcs : element? first cs = some (.element (writePart p ++ rest)))
    (hp : partSchema.readObject [.index index] (writePart p ++ rest) = .ok (p, rest))
    (htail : readElements fuel (index + 1) false rest = .ok (parts, behind)) :
    readElements (fuel + 1) index first cs = .ok (p :: parts, behind) := by
  simp [readElements, hcs, hp, htail, formed, bind, Except.bind, pure, Except.pure]

theorem readElements_close (first : Bool) (rest : List Char) :
    readElements (fuel + 1) index first (']' :: rest) = .ok ([], rest) := by
  simp [readElements, element?_close, formed, bind, Except.bind]

variable {parts : List Part} (h : ∀ p ∈ parts, p.WellFormed)
  (short : ∀ p ∈ parts, ∀ n, p.ref? = some (.position n) → (digits n).length ≤ maxDigits)
include h short

/-- The elements behind the first one, each behind its comma. -/
theorem readElements_commas (hfuel : parts.length < fuel) (rest : List Char) :
    readElements fuel index false
      (parts.flatMap (fun p => ',' :: writePart p) ++ ']' :: rest) = .ok (parts, rest) := by
  induction parts generalizing fuel index with
  | nil =>
    obtain ⟨fuel, rfl⟩ := Nat.exists_eq_succ_of_ne_zero (Nat.ne_of_gt hfuel)
    exact readElements_close false rest
  | cons p parts ih =>
    obtain ⟨fuel, rfl⟩ := Nat.exists_eq_succ_of_ne_zero (Nat.ne_zero_of_lt hfuel)
    have hp := partObject_writePart (h p List.mem_cons_self) (short p List.mem_cons_self)
      [.index index] (parts.flatMap (fun p => ',' :: writePart p) ++ ']' :: rest)
    have htail := @ih fuel (index + 1) (fun q hq => h q (List.mem_cons_of_mem _ hq))
      (fun q hq => short q (List.mem_cons_of_mem _ hq)) (Nat.lt_of_succ_lt_succ hfuel)
    refine readElements_cons ?_ hp htail
    obtain ⟨cs, hcs⟩ := writePart_eq_cons p
    rw [List.flatMap_cons, List.append_assoc, List.cons_append, hcs]
    exact element?_next _

/-- The elements up to the end of the array. -/
theorem readElements_writePart (hfuel : parts.length < fuel) (rest : List Char) :
    readElements fuel index true (commas (parts.map writePart) ++ ']' :: rest) =
      .ok (parts, rest) := by
  obtain ⟨fuel, rfl⟩ := Nat.exists_eq_succ_of_ne_zero (Nat.ne_zero_of_lt hfuel)
  cases parts with
  | nil => exact readElements_close true rest
  | cons p parts =>
    have hp := partObject_writePart (h p List.mem_cons_self) (short p List.mem_cons_self)
      [.index index] (parts.flatMap (fun p => ',' :: writePart p) ++ ']' :: rest)
    have htail := @readElements_commas fuel (index + 1) parts
      (fun q hq => h q (List.mem_cons_of_mem _ hq))
      (fun q hq => short q (List.mem_cons_of_mem _ hq)) (Nat.lt_of_succ_lt_succ hfuel) rest
    refine readElements_cons ?_ hp htail
    obtain ⟨cs, hcs⟩ := writePart_eq_cons p
    rw [List.map_cons, commas_cons, List.flatMap_map, List.append_assoc, hcs]
    exact element?_first _

end Elements

theorem length_le_commas (texts : List (List Char)) :
    texts.length ≤ (commas texts).length + 1 := by
  have hflat : ∀ ts : List (List Char), ts.length ≤ (ts.flatMap (',' :: ·)).length := by
    intro ts
    induction ts with
    | nil => exact le_refl _
    | cons t ts ih =>
      simp only [List.flatMap_cons, List.length_append, List.length_cons]
      omega
  cases texts with
  | nil => exact Nat.zero_le _
  | cons t ts =>
    have hts := hflat ts
    simp only [commas_cons, List.length_append, List.length_cons]
    omega

/-- **Written parts are read back.** The JSON form of well-formed parts is accepted and gives the
same parts, as long as no position has more digits than are read. -/
theorem readParts_writeParts {parts : List Part} (h : ∀ p ∈ parts, p.WellFormed)
    (short : ∀ p ∈ parts, ∀ n, p.ref? = some (.position n) → (digits n).length ≤ maxDigits) :
    readParts (writeParts parts) = .ok parts := by
  have hfuel : parts.length < (commas (parts.map writePart) ++ [']']).length + 1 := by
    have hlength := length_le_commas (parts.map writePart)
    simp only [List.length_map, List.length_append, List.length_singleton] at hlength ⊢
    omega
  rw [writeParts, readParts, String.toList_ofList, List.cons_append, skipSpace_cons (by decide)]
  simp only [readElements_writePart h short hfuel, bind, Except.bind]
  rfl

/-- Parts of every kind, with texts that need escapes. -/
def everyKind : List Part :=
  [.literal (.identifier "a\"b\\c"), .literal (.text "tab\there\x01é😀"),
    .literal (.number "-1.50"), .placeholder ⟨false, false, .name "\n"⟩,
    .placeholder ⟨false, true, .position 12345678901234567890⟩,
    .placeholder ⟨true, false, .position 0⟩, .placeholder ⟨true, true, .name "it's"⟩]

theorem readParts_everyKind :
    (∀ p ∈ everyKind, p.WellFormed) ∧
      (∀ p ∈ everyKind, ∀ n, p.ref? = some (.position n) → (digits n).length ≤ maxDigits) ∧
      readParts (writeParts everyKind) = .ok everyKind := by
  have h : ∀ p ∈ everyKind, p.WellFormed := by decide
  have short : ∀ p ∈ everyKind, ∀ n, p.ref? = some (.position n) →
      (digits n).length ≤ maxDigits := by
    intro p hp n hn
    simp only [everyKind, List.mem_cons, List.not_mem_nil, or_false] at hp
    rcases hp with rfl | rfl | rfl | rfl | rfl | rfl | rfl <;> cases hn <;> decide
  exact ⟨h, short, readParts_writeParts h short⟩

end ShellTemplate.Json
