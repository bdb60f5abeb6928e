import ShellTemplate.Proofs.Expanding
import ShellTemplate.Proofs.JsonSpelling

/-!
# Objects are read by what they say

A reader makes the same of a value wherever it stands: it gives one result and takes the text up to
its end, or it refuses the text. So an object is read by what its members say, and not by how they
are spelled.

* `Gives` — what a reader makes of a text, whatever stands around it.
* `Schema.decode` — the object that its members stand for: the kind that is given first, and the
  value that is given last.
* `Schema.gives_readObject` — an object is read as what its members stand for.

Principal result: `Schema.gives_record` — a record is read as the object that its value builds,
whatever the order of its members and whatever stands among them.
-/

set_option autoImplicit false

namespace ShellTemplate.Json

open Number

/-! ## What a reader makes of a text -/

/-- A reader makes the same of a text whatever stands around it and wherever it is: it gives a value
and takes the text up to its end, or it gives none and refuses the text. -/
def Gives {α : Type} (read : List Step → List Char → Except Problem (α × List Char))
    (source : List Char) (given : Option α) : Prop :=
  ∀ (path : List Step) (gap : Gap) (rest : List Char), Ends rest →
    (read path (gap.chars ++ (source ++ rest))).toOption = given.map (·, rest)

section Gives

variable {α β : Type} {read : List Step → List Char → Except Problem (α × List Char)}
  {source : List Char}

theorem Gives.ok {a : α} (h : Gives read source (some a)) (path : List Step) (gap : Gap)
    {rest : List Char} (ends : Ends rest) :
    read path (gap.chars ++ (source ++ rest)) = .ok (a, rest) :=
  except_toOption_eq_some.1 (h path gap rest ends)

theorem except_toOption_eq_none {ε : Type} {r : Except ε α} :
    r.toOption = none ↔ ∃ e, r = .error e := by
  cases r <;> simp [Except.toOption]

theorem Gives.refused (h : Gives read source none) (path : List Step) (gap : Gap)
    {rest : List Char} (ends : Ends rest) :
    ∃ e, read path (gap.chars ++ (source ++ rest)) = .error e :=
  except_toOption_eq_none.1 (h path gap rest ends)

theorem ends_nil : Ends [] := fun _ h => nomatch h

theorem Gives.unique {o o' : Option α} (h : Gives read source o) (h' : Gives read source o') :
    o = o' := by
  have hsame := (h [] .none [] ends_nil).symm.trans (h' [] .none [] ends_nil)
  cases o <;> cases o' <;> simp_all

theorem Gives.map {given : Option α} (h : Gives read source given) (f : α → β) :
    Gives (fun path cs => (read path cs).map fun (a, rest) => (f a, rest)) source
      (given.map f) := by
  intro path gap rest ends
  cases given with
  | none =>
    obtain ⟨e, he⟩ := h.refused path gap ends
    simp [he, Except.map, Except.toOption]
  | some a =>
    have hok := h.ok path gap ends
    simp [hok, Except.map, Except.toOption]

end Gives

/-! ## Texts, names of kinds and references -/

section Atoms

variable {source text : List Char}

theorem gives_readText (string : StringOf source text) :
    Gives readText source (some (.str (String.ofList text))) := by
  intro path gap rest _
  obtain ⟨tail, rfl, hread⟩ := string.exists_body
  rw [readText, List.cons_append, skipSpace_gap_cons gap (by decide)]
  simp [hread, formed, Except.map, Except.toOption]

theorem gives_readKind (string : StringOf source text) :
    Gives readKind source (some (String.ofList text)) := by
  intro path gap rest _
  obtain ⟨tail, rfl, hread⟩ := string.exists_body
  rw [readKind, List.cons_append, skipSpace_gap_cons gap (by decide)]
  simp [hread, formed, Except.map, Except.toOption]

theorem gives_readRef_string (string : StringOf source text) :
    Gives readRef source (some (.str (String.ofList text))) := by
  intro path gap rest _
  obtain ⟨tail, rfl, hread⟩ := string.exists_body
  rw [readRef, List.cons_append, skipSpace_gap_cons gap (by decide)]
  simp [hread, formed, Except.map, Except.toOption]

theorem exists_gives_readText (h : ValueOf IsNumber source) : ∃ o, Gives readText source o := by
  obtain ⟨c, tail, starts⟩ := h.opening
  by_cases hc : c = '"'
  · obtain ⟨text, string⟩ := starts.string hc
    exact ⟨_, gives_readText string⟩
  · refine ⟨none, fun path gap rest _ => ?_⟩
    rw [readText, starts.cons, List.cons_append, skipSpace_gap_cons gap starts.visible]
    split
    · rename_i heq
      exact absurd (List.cons.inj heq).1 hc
    · rfl

theorem exists_gives_readKind (h : ValueOf IsNumber source) : ∃ o, Gives readKind source o := by
  obtain ⟨c, tail, starts⟩ := h.opening
  by_cases hc : c = '"'
  · obtain ⟨text, string⟩ := starts.string hc
    exact ⟨_, gives_readKind string⟩
  · refine ⟨none, fun path gap rest _ => ?_⟩
    rw [readKind, starts.cons, List.cons_append, skipSpace_gap_cons gap starts.visible]
    split
    · rename_i heq
      exact absurd (List.cons.inj heq).1 hc
    · exact except_toOption_eq_none.2 (by cases skip _ <;> exact ⟨_, rfl⟩)

theorem number?_eq_none {c : Char} (h : ¬ (c = '-' ∨ c.isDigit = true)) (cs : List Char) :
    number? (c :: cs) = none := by
  rw [not_or, Bool.not_eq_true] at h
  unfold number?
  split
  rename_i minus unsigned hsign
  split at hsign
  · rename_i heq
    exact absurd (List.cons.inj heq).1 h.1
  · cases hsign
    simp [h.2]

/-- What stands where a reference is expected is read as a number if it is no string. -/
theorem readRef_gap_cons {c : Char} (visible : isSpace c = false) (other : c ≠ '"')
    (path : List Step) (gap : Gap) (cs : List Char) :
    readRef path (gap.chars ++ c :: cs) =
      match number? (c :: cs) with
      | some (⟨text, true⟩, rest) =>
        if maxDigits < text.length then refuse path .integerTooLong
        else .ok (.int (wholeNumber text), rest)
      | _ => refuse path (mismatch "int | str" (c :: cs)) := by
  rw [readRef, skipSpace_gap_cons gap visible]
  split
  · rename_i heq
    exact absurd (List.cons.inj heq).1 other
  · rfl

theorem exists_gives_readRef (h : ValueOf IsNumber source) : ∃ o, Gives readRef source o := by
  obtain ⟨c, tail, starts⟩ := h.opening
  by_cases hc : c = '"'
  · obtain ⟨text, string⟩ := starts.string hc
    exact ⟨_, gives_readRef_string string⟩
  have hread := readRef_gap_cons starts.visible hc
  by_cases hnumber : c = '-' ∨ c.isDigit = true
  · obtain ⟨token, htoken⟩ : ∃ token, ∀ rest, Ends rest →
        number? (source ++ rest) = some (token, rest) := by
      obtain ⟨sign, whole, hf, he⟩ := starts.number hnumber
      exact ⟨_, fun rest ends => number?_spelled sign whole hf he ends⟩
    simp only [starts.cons, List.cons_append] at htoken
    refine ⟨if token.whole = true ∧ token.text.length ≤ maxDigits then
      some (.int (wholeNumber token.text)) else none, fun path gap rest ends => ?_⟩
    rw [starts.cons, List.cons_append, hread, htoken rest ends]
    obtain ⟨text, whole⟩ := token
    cases whole with
    | false => simp [refuse, Except.toOption]
    | true =>
      by_cases hshort : text.length ≤ maxDigits
      · simp [hshort, Nat.not_lt.2 hshort, Except.toOption]
      · simp [hshort, refuse, Except.toOption, not_le.1 hshort]
  · refine ⟨none, fun path gap rest _ => ?_⟩
    rw [starts.cons, List.cons_append, hread, number?_eq_none hnumber]
    rfl

end Atoms

/-! ## Objects -/

/-- What a member of an object is read as: its name, its value as the name of a kind, and its value
as the content of an object of some kind. -/
structure Reading (κ : Type) where
  name : List Char
  kind : Option String
  value : κ → Option Value

theorem except_toOption_bind {ε α β : Type} (r : Except ε α) (f : α → Except ε β) :
    (r >>= f).toOption = r.toOption.bind fun a => (f a).toOption := by
  cases r <;> rfl

theorem toOption_formed {α : Type} (path : List Step) (o : Option α) :
    (formed path o).toOption = o := by
  cases o <;> rfl

namespace Schema

variable {κ α : Type} (s : Schema κ α)

/-- The kind that the first member of this name gives. -/
def kindAmong : List (Reading κ) → Option κ
  | [] => none
  | r :: rs => if r.name = "kind".toList then r.kind.bind s.kind? else kindAmong rs

/-- The object of a kind that its members build: of the values of its field the last one counts, and
no member may give another kind. -/
def buildFrom (k : κ) : Option Value → List (Reading κ) → Option α
  | value, [] => value.bind fun v => (s.build k v).toOption
  | value, r :: rs =>
    if r.name = (s.field k).toList then (r.value k).bind fun v => buildFrom k (some v) rs
    else if r.name = "kind".toList then
      r.kind.bind fun other => if other = s.name k then buildFrom k value rs else none
    else buildFrom k value rs

/-- The object that its members stand for. -/
def decode (rs : List (Reading κ)) : Option α :=
  (s.kindAmong rs).bind fun k => s.buildFrom k none rs

/-- What a member is read as. -/
structure ReadAs (m : MemberText) (r : Reading κ) : Prop where
  name : StringOf m.name.source r.name
  value : ValueOf IsNumber m.value.source
  asKind : Gives Json.readKind m.value.source r.kind
  asContent : ∀ k, Gives (s.read k) m.value.source (r.value k)

variable {s}

theorem gives_kind {source : List Char} {name : Option String}
    (h : Gives Json.readKind source name) : Gives s.readKind source (name.bind s.kind?) := by
  intro path gap rest ends
  rw [readKind, except_toOption_bind, h _ gap rest ends]
  cases name with
  | none => rfl
  | some name =>
    simp only [Option.map_some, Option.bind_some]
    cases s.kind? name <;> rfl

theorem name_of_kind? {name : String} {k : κ} (h : s.kind? name = some k) : s.name k = name := by
  simpa using List.find?_some h

section Members

variable {m : MemberText} {r : Reading κ} {members : List MemberText} {rs : List (Reading κ)}

/-- The kind is found where the next member has its name. -/
theorem findKind_found (known : s.ReadAs m r) (found : r.name = "kind".toList) (path : List Step)
    (fuel : Nat) (first : Bool) (gap : Gap) (texts : List (List Char)) (rest : List Char) :
    (s.findKind path (fuel + 1) first
      (upcoming first gap (m.text :: texts) ('}' :: rest))).toOption =
      (r.kind.bind s.kind?).map
        (·, if first then some (upcoming false m.value.after texts ('}' :: rest)) else none) := by
  have hkind := gives_kind (s := s) known.asKind path m.value.before _
    (ends_upcoming (.inr rfl) m.value.after texts rest)
  rw [findKind, member?_upcoming known.name, except_toOption_bind, toOption_formed,
    Option.bind_some]
  simp only
  rw [if_pos found, except_toOption_bind, hkind]
  cases r.kind.bind s.kind? <;> rfl

/-- A member of another name is passed over. -/
theorem findKind_other (known : s.ReadAs m r) (other : r.name ≠ "kind".toList) (path : List Step)
    (fuel : Nat) (first : Bool) (gap : Gap) (texts : List (List Char)) (rest : List Char) :
    s.findKind path (fuel + 1) first (upcoming first gap (m.text :: texts) ('}' :: rest)) =
      s.findKind path fuel false (upcoming false m.value.after texts ('}' :: rest)) := by
  have hskip := skip_valueOf known.value m.value.before
    (ends_upcoming (.inr rfl) m.value.after texts rest)
  rw [findKind, member?_upcoming known.name]
  simp only [formed, bind, Except.bind]
  rw [if_neg other, hskip]

theorem findKind_upcoming (h : List.Forall₂ s.ReadAs members rs) :
    ∀ (path : List Step) (fuel : Nat) (gap : Gap) (rest : List Char), members.length < fuel →
      (s.findKind path fuel false
        (upcoming false gap (members.map MemberText.text) ('}' :: rest))).toOption =
          (s.kindAmong rs).map (·, none) := by
  induction h with
  | nil =>
    intro path fuel gap rest hfuel
    obtain ⟨fuel, rfl⟩ := Nat.exists_eq_succ_of_ne_zero (Nat.ne_zero_of_lt hfuel)
    rw [List.map_nil, findKind, member?_upcoming_nil]
    rfl
  | @cons m r members rs known _ ih =>
    intro path fuel gap rest hfuel
    obtain ⟨fuel, rfl⟩ := Nat.exists_eq_succ_of_ne_zero (Nat.ne_zero_of_lt hfuel)
    rw [List.map_cons, kindAmong]
    by_cases hname : r.name = "kind".toList
    · rw [if_pos hname, findKind_found known hname, if_neg Bool.false_ne_true]
    · rw [if_neg hname, findKind_other known hname]
      exact ih path fuel m.value.after rest (Nat.lt_of_succ_lt_succ hfuel)

/-- **The members of an object are read as the object that they build.** -/
theorem readMembers_upcoming (k : κ) (h : List.Forall₂ s.ReadAs members rs) :
    ∀ (path : List Step) (fuel : Nat) (first : Bool) (value : Option Value) (gap : Gap)
      (rest : List Char), members.length < fuel →
      (s.readMembers k path fuel first value
        (upcoming first gap (members.map MemberText.text) ('}' :: rest))).toOption =
          (s.buildFrom k value rs).map (·, rest) := by
  induction h with
  | nil =>
    intro path fuel first value gap rest hfuel
    obtain ⟨fuel, rfl⟩ := Nat.exists_eq_succ_of_ne_zero (Nat.ne_zero_of_lt hfuel)
    rw [List.map_nil, readMembers, member?_upcoming_nil]
    simp only [formed, bind, Except.bind, buildFrom]
    cases value with
    | none => rfl
    | some v =>
      simp only [Option.bind_some]
      cases s.build k v <;> rfl
  | @cons m r members rs known _ ih =>
    intro path fuel first value gap rest hfuel
    obtain ⟨fuel, rfl⟩ := Nat.exists_eq_succ_of_ne_zero (Nat.ne_zero_of_lt hfuel)
    have hfuel : members.length < fuel := Nat.lt_of_succ_lt_succ hfuel
    have ends := ends_upcoming (.inr rfl) m.value.after (members.map MemberText.text) rest
    rw [List.map_cons, readMembers, member?_upcoming known.name, except_toOption_bind,
      toOption_formed, Option.bind_some, buildFrom]
    simp only
    by_cases hfield : r.name = (s.field k).toList
    · rw [if_pos hfield, if_pos hfield, except_toOption_bind, known.asContent k _ _ _ ends]
      cases r.value k with
      | none => rfl
      | some v => exact ih path fuel false (some v) m.value.after rest hfuel
    rw [if_neg hfield, if_neg hfield]
    by_cases hkind : r.name = "kind".toList
    · rw [if_pos hkind, if_pos hkind, except_toOption_bind, known.asKind _ _ _ ends]
      cases r.kind with
      | none => rfl
      | some other =>
        simp only [Option.map_some, Option.bind_some]
        by_cases hsame : other = s.name k
        · rw [if_pos hsame, if_pos hsame]
          exact ih path fuel false value m.value.after rest hfuel
        · rw [if_neg hsame, if_neg hsame]
          rfl
    · rw [if_neg hkind, if_neg hkind, except_toOption_bind, toOption_formed,
        skip_valueOf known.value _ ends, Option.bind_some]
      exact ih path fuel false value m.value.after rest hfuel

/-- The member that gives the kind says nothing more. -/
theorem buildFrom_found {k : κ} (apart : s.field k ≠ "kind") (found : r.name = "kind".toList)
    (hk : r.kind.bind s.kind? = some k) (value : Option Value) :
    s.buildFrom k value (r :: rs) = s.buildFrom k value rs := by
  obtain ⟨name, hname, hk⟩ := Option.bind_eq_some_iff.1 hk
  have hfield : r.name ≠ (s.field k).toList := by
    rw [found]
    exact fun h => apart (String.toList_inj.1 h).symm
  rw [buildFrom, if_neg hfield, if_pos found, hname, Option.bind_some,
    if_pos (name_of_kind? hk).symm]

/-- **An object is read as what its members stand for**, in the order and with the repetitions that
they have. -/
theorem gives_readObject (apart : ∀ k, s.field k ≠ "kind") (h : List.Forall₂ s.ReadAs members rs)
    (lead : Gap) :
    Gives s.readObject (row '{' lead (members.map MemberText.text) '}') (s.decode rs) := by
  intro path gap rest _
  have hfuel := length_lt_upcoming lead (members.map MemberText.text) '}' rest
  rw [List.length_map] at hfuel
  rw [row_append, readObject, skipSpace_gap_cons gap (by decide)]
  simp only
  generalize hn : (upcoming true lead (members.map MemberText.text) ('}' :: rest)).length = n
    at hfuel
  rw [except_toOption_bind]
  cases h with
  | nil =>
    rw [List.map_nil, findKind, member?_upcoming_nil]
    rfl
  | @cons m r members rs known others =>
    have hmembers : members.length < n := Nat.lt_of_succ_lt_succ hfuel
    by_cases hname : r.name = "kind".toList
    · rw [List.map_cons, findKind_found known hname, if_pos rfl, decode, kindAmong, if_pos hname]
      cases hk : r.kind.bind s.kind? with
      | none => rfl
      | some k =>
        simp only [Option.map_some, Option.bind_some]
        rw [buildFrom_found (apart k) hname hk]
        exact readMembers_upcoming k others path (n + 1) false none m.value.after rest (by omega)
    · have hkind := findKind_upcoming others path n m.value.after rest hmembers
      rw [List.map_cons, findKind_other known hname, hkind, decode, kindAmong, if_neg hname]
      cases s.kindAmong rs with
      | none => rfl
      | some k =>
        simp only [Option.map_some, Option.bind_some]
        exact readMembers_upcoming k (.cons known others) path (n + 1) true none lead rest hfuel

theorem exists_forall₂_readAs
    (readable : ∀ k source, ValueOf IsNumber source → ∃ o, Gives (s.read k) source o)
    (named : ∀ m ∈ members, ∃ name, StringOf m.name.source name)
    (each : ∀ m ∈ members, ValueOf IsNumber m.value.source) :
    ∃ rs, List.Forall₂ s.ReadAs members rs := by
  refine exists_forall₂_iff.2 fun m hm => ?_
  obtain ⟨name, hname⟩ := named m hm
  obtain ⟨kind, hkind⟩ := exists_gives_readKind (each m hm)
  choose content hcontent using fun k => readable k m.value.source (each m hm)
  exact ⟨⟨name, kind, content⟩, hname, each m hm, hkind, hcontent⟩

/-- Every object is read, or refused, for what it is. -/
theorem exists_gives_readObject (apart : ∀ k, s.field k ≠ "kind")
    (readable : ∀ k source, ValueOf IsNumber source → ∃ o, Gives (s.read k) source o)
    {source : List Char} (h : ValueOf IsNumber source) : ∃ o, Gives s.readObject source o := by
  obtain ⟨c, tail, starts⟩ := h.opening
  by_cases hc : c = '{'
  · obtain ⟨members, ⟨lead, rfl⟩, named, each⟩ := starts.object hc
    obtain ⟨rs, hrs⟩ := exists_forall₂_readAs readable named each
    exact ⟨_, gives_readObject apart hrs lead⟩
  · refine ⟨none, fun path gap rest _ => ?_⟩
    rw [readObject, starts.cons, List.cons_append, skipSpace_gap_cons gap starts.visible]
    split
    · rename_i heq
      exact absurd (List.cons.inj heq).1 hc
    · rfl

end Members

end Schema

/-! ## Records -/

theorem StringOf.unique {source text text' : List Char} (h : StringOf source text)
    (h' : StringOf source text') : text = text' := by
  obtain ⟨tail, rfl, hread⟩ := h.exists_body
  obtain ⟨tail', hsource, hread'⟩ := h'.exists_body
  cases hsource
  have hsame := (hread []).symm.trans (hread' [])
  exact (Prod.mk.inj (Option.some.inj hsame)).1

namespace Schema

section Records

variable {κ α : Type} {s : Schema κ α} {k : κ} {v : Value} {a : α} {members : List MemberText}
  {rs : List (Reading κ)}

/-- A member says nothing against an object of a kind with a value: where it gives the kind it gives
this kind, and where it gives the content it gives this value. -/
def Agrees (s : Schema κ α) (k : κ) (v : Value) (m : MemberText) : Prop :=
  (StringOf m.name.source "kind".toList → Gives Json.readKind m.value.source (some (s.name k))) ∧
    (StringOf m.name.source (s.field k).toList → Gives (s.read k) m.value.source (some v))

theorem kindAmong_record (hk : s.kind? (s.name k) = some k)
    (h : List.Forall₂ s.ReadAs members rs) (agree : ∀ m ∈ members, s.Agrees k v m)
    (tagged : ∃ m ∈ members, StringOf m.name.source "kind".toList) : s.kindAmong rs = some k := by
  induction h with
  | nil => simp at tagged
  | @cons m r members rs known _ ih =>
    rw [List.forall_mem_cons] at agree
    rw [kindAmong]
    by_cases hname : r.name = "kind".toList
    · have hkind : r.kind = some (s.name k) :=
        known.asKind.unique (agree.1.1 (hname ▸ known.name))
      rw [if_pos hname, hkind]
      exact hk
    · rw [if_neg hname]
      refine ih agree.2 ?_
      obtain ⟨m', hm', htag⟩ := tagged
      rcases List.mem_cons.1 hm' with rfl | hm'
      · exact absurd (known.name.unique htag) hname
      · exact ⟨m', hm', htag⟩

theorem buildFrom_record (hbuild : s.build k v = .ok a) (h : List.Forall₂ s.ReadAs members rs)
    (agree : ∀ m ∈ members, s.Agrees k v m) :
    ∀ value : Option Value, (∀ w ∈ value, w = v) →
      (value = none → ∃ m ∈ members, StringOf m.name.source (s.field k).toList) →
      s.buildFrom k value rs = some a := by
  induction h with
  | nil =>
    intro value hvalue filled
    cases value with
    | none => simp at filled
    | some w =>
      obtain rfl : w = v := hvalue w rfl
      simp [buildFrom, hbuild, Except.toOption]
  | @cons m r members rs known _ ih =>
    intro value hvalue filled
    rw [List.forall_mem_cons] at agree
    rw [buildFrom]
    by_cases hfield : r.name = (s.field k).toList
    · have hcontent : r.value k = some v :=
        (known.asContent k).unique (agree.1.2 (hfield ▸ known.name))
      rw [if_pos hfield, hcontent]
      exact ih agree.2 (some v) (by simp) (by simp)
    have filled' : value = none → ∃ m ∈ members, StringOf m.name.source (s.field k).toList := by
      intro hnone
      obtain ⟨m', hm', hcontent⟩ := filled hnone
      rcases List.mem_cons.1 hm' with rfl | hm'
      · exact absurd (known.name.unique hcontent) hfield
      · exact ⟨m', hm', hcontent⟩
    rw [if_neg hfield]
    by_cases hname : r.name = "kind".toList
    · have hkind : r.kind = some (s.name k) :=
        known.asKind.unique (agree.1.1 (hname ▸ known.name))
      rw [if_pos hname, hkind, Option.bind_some, if_pos rfl]
      exact ih agree.2 value hvalue filled'
    · rw [if_neg hname]
      exact ih agree.2 value hvalue filled'

variable {Content : List Char → Prop}

/-- The members of a record agree with it, and both that it needs are among them. -/
theorem agrees_record (apart : s.field k ≠ "kind")
    (content : ∀ source, Content source → Gives (s.read k) source (some v))
    {others : List MemberText} {tag filling : MemberText}
    (tagName : StringOf tag.name.source "kind".toList)
    (tagValue : StringOf tag.value.source (s.name k).toList)
    (fillingName : StringOf filling.name.source (s.field k).toList)
    (fillingValue : Content filling.value.source)
    (otherNames : ∀ m ∈ others, ∃ name,
      StringOf m.name.source name ∧ name ≠ "kind".toList ∧ name ≠ (s.field k).toList) :
    ∀ m ∈ tag :: filling :: others, s.Agrees k v m := by
  have hapart : (s.field k).toList ≠ "kind".toList := fun h => apart (String.toList_inj.1 h)
  rw [List.forall_mem_cons, List.forall_mem_cons]
  refine ⟨⟨fun _ => ?_, fun h => ?_⟩, ⟨fun h => ?_, fun _ => content _ fillingValue⟩, ?_⟩
  · have hkind := gives_readKind tagValue
    rwa [String.ofList_toList] at hkind
  · exact absurd (h.unique tagName) hapart
  · exact absurd (fillingName.unique h) hapart
  · intro m hm
    obtain ⟨name, hname, hkind, hfield⟩ := otherNames m hm
    exact ⟨fun h => absurd (hname.unique h) hkind, fun h => absurd (hname.unique h) hfield⟩

/-- **A record is read as the object that its value builds**, in whatever order its members stand
and whatever stands among them. -/
theorem gives_record (apart : ∀ k, s.field k ≠ "kind")
    (readable : ∀ k source, ValueOf IsNumber source → ∃ o, Gives (s.read k) source o)
    (hk : s.kind? (s.name k) = some k) (hbuild : s.build k v = .ok a)
    (content : ∀ source, Content source →
      ValueOf IsNumber source ∧ Gives (s.read k) source (some v))
    {source : List Char} (h : RecordOf (s.name k) (s.field k) Content source) :
    ValueOf IsNumber source ∧ Gives s.readObject source (some a) := by
  obtain @⟨members, others, tag, filling, lead, order, tagName, tagValue, fillingName, fillingValue,
    otherNames, otherValues⟩ := h
  have named : ∀ m ∈ members, ∃ name, StringOf m.name.source name := by
    intro m hm
    rw [order.mem_iff, List.mem_cons, List.mem_cons] at hm
    rcases hm with rfl | rfl | hm
    · exact ⟨_, tagName⟩
    · exact ⟨_, fillingName⟩
    · obtain ⟨name, hname, -⟩ := otherNames m hm
      exact ⟨name, hname⟩
  have each : ∀ m ∈ members, ValueOf IsNumber m.value.source := by
    intro m hm
    rw [order.mem_iff, List.mem_cons, List.mem_cons] at hm
    rcases hm with rfl | rfl | hm
    · exact .string tagValue
    · exact (content _ fillingValue).1
    · exact (otherValues m hm).mono fun _ => IsShortWhole.isNumber
  have agree : ∀ m ∈ members, s.Agrees k v m := fun m hm =>
    agrees_record (apart k) (fun source h => (content source h).2) tagName tagValue fillingName
      fillingValue otherNames m (order.mem_iff.1 hm)
  have tagged : ∃ m ∈ members, StringOf m.name.source "kind".toList :=
    ⟨tag, order.mem_iff.2 List.mem_cons_self, tagName⟩
  have filled : ∃ m ∈ members, StringOf m.name.source (s.field k).toList :=
    ⟨filling, order.mem_iff.2 (List.mem_cons_of_mem _ List.mem_cons_self), fillingName⟩
  obtain ⟨rs, hrs⟩ := exists_forall₂_readAs readable named each
  have hdecode : s.decode rs = some a := by
    rw [decode, kindAmong_record hk hrs agree tagged, Option.bind_some]
    exact buildFrom_record hbuild hrs agree none (by simp) fun _ => filled
  exact ⟨.object lead named each, hdecode ▸ gives_readObject apart hrs lead⟩

end Records

end Schema

end ShellTemplate.Json
