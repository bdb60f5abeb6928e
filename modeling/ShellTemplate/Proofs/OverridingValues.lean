import ShellTemplate.Proofs.Composition
import ShellTemplate.Proofs.NamedValues
import ShellTemplate.Proofs.Names

/-!
# Named values in front of a context

An expansion can be given named values besides a context. They come first, reference by reference:
where a name has a value, the context is not asked, whatever the value is good for. The values
could as well have been put into the context, if that is a dictionary.

* `resolver_contextFor`, `behind_of_foundIn`, `behind_congr` — what an expansion finds for each
  reference, and what that hangs on.
* `find?_union_entries` — what is found in a dictionary that named values were put into.
* `placeTexts_of_takes`, `placeTexts_of_not_takes` — a value of the kind that a placeholder wants,
  and one of the other kind.
* `expandItems_of_first_failure` — the first value that fails decides.
* `Template.expand_named_values_first` — all this for templates.
-/

set_option autoImplicit false

namespace ShellTemplate

open Dict Shell

/-- What is given for a reference where named values come first: the value of its name, of several
the last one, or else what is given without them. -/
def Resolver.withNamed (resolve : Resolver) (values : List (String × Value)) : Resolver :=
  fun ref =>
    match foundIn (override [] values) ref with
    | some v => .ok v
    | none => resolve ref

/-- What an expansion finds for each reference: what the context gives, if there are no named
values, and otherwise first what is named. A context behind named values is asked for a reference
that it reports as it was asked for. -/
def Resolver.behind (resolve : Resolver) (values : List (String × Value)) : Resolver :=
  match values with
  | [] => resolve
  | values => resolve.asked.withNamed values

/-! ## The context of an expansion -/

section Contexts

variable {values : List (String × Value)}

theorem withNamed_nil (resolve : Resolver) : resolve.withNamed [] = resolve := by
  funext ref
  cases ref <;> rfl

/-- Only an object of the caller's own could have reported another reference. -/
theorem behind_eq_withNamed {c : Context} (hcustom : c.isCustom = false)
    (values : List (String × Value)) :
    c.resolver.behind values = c.resolver.withNamed values := by
  cases values with
  | nil => exact (withNamed_nil c.resolver).symm
  | cons entry values =>
    rw [Resolver.behind, asked_resolver hcustom]
    exact nofun

/-- What is named is found, whatever the context holds. -/
theorem behind_of_foundIn (resolve : Resolver) {ref : Ref} {v : Value}
    (h : foundIn (override [] values) ref = some v) : resolve.behind values ref = .ok v := by
  cases values with
  | nil => cases ref <;> cases h
  | cons entry values =>
    show resolve.asked.withNamed (entry :: values) ref = .ok v
    rw [Resolver.withNamed, h]

/-- Only what is found by a reference counts for it, besides that there is something named at all
where the context is one of the caller's own. -/
theorem behind_congr {c : Context} {others : List (String × Value)} {ref : Ref}
    (hboth : c.isCustom = false ∨ (values = [] ↔ others = []))
    (hfound : foundIn (override [] values) ref = foundIn (override [] others) ref) :
    c.resolver.behind values ref = c.resolver.behind others ref := by
  rcases hboth with hcustom | hboth
  · rw [behind_eq_withNamed hcustom, behind_eq_withNamed hcustom, Resolver.withNamed,
      Resolver.withNamed, hfound]
  · cases values with
    | nil => rw [hboth.1 rfl]
    | cons entry values =>
      cases others with
      | nil => cases hboth.2 rfl
      | cons entry' others =>
        show c.resolver.asked.withNamed _ ref = c.resolver.asked.withNamed _ ref
        rw [Resolver.withNamed, Resolver.withNamed, hfound]

/-- Behind a dictionary of named values a context is asked for the references that have none. -/
theorem resolver_chain_named (values : List (String × Value)) (c : Context) {ref : Ref}
    (href : ref.toValue.IsWritable) :
    (Context.chain [.mapping (.dict (ofNamed values)), c]).resolver ref =
      c.resolver.asked.withNamed values ref := by
  rw [resolver_pair, ofNamed_eq, resolver_entries, Resolver.withNamed]
  cases foundIn (override [] values) ref with
  | some v => rfl
  | none => exact firstBound_unbound_left href _

theorem resolver_named (values : List (String × Value)) :
    (Context.mapping (.dict (ofNamed values))).resolver =
      Context.empty.resolver.withNamed values := by
  funext ref
  have hempty : Context.empty.resolver ref = .error (unbound ref.toValue) := by
    have hnone : foundIn [] ref = none := by cases ref <;> rfl
    have hresolver := resolver_entries [] ref
    rwa [hnone] at hresolver
  rw [ofNamed_eq, resolver_entries, Resolver.withNamed, hempty]
  cases foundIn (override [] values) ref <;> rfl

/-- **Named values come before the context**, reference by reference. -/
theorem resolver_contextFor {v : Value} {c : Context} (hc : Context.ofValue v = .ok c)
    (values : List (String × Value)) :
    ∃ d, Template.contextFor v values = .ok d ∧
      ∀ ref : Ref, ref.toValue.IsWritable → d.resolver ref = c.resolver.behind values ref := by
  cases values with
  | nil => exact ⟨c, hc, fun _ _ => rfl⟩
  | cons entry values =>
    unfold Template.contextFor
    dsimp only
    split
    · next h => cases h
    · cases hc
      refine ⟨_, rfl, fun ref _ => ?_⟩
      rw [resolver_named, behind_eq_withNamed rfl]
    · rw [hc]
      exact ⟨_, rfl, fun ref href => resolver_chain_named (entry :: values) c href⟩

/-- A reference that cannot be written has no value behind named values, whatever the context gives:
none of the names is it, and that cannot be reported. -/
theorem resolver_contextFor_obstacle {v : Value} {c : Context} (hc : Context.ofValue v = .ok c)
    (hvalues : values ≠ []) {ref : Ref} {obstacle : Obstacle}
    (href : ref.toValue.obstacle? = some obstacle) :
    ∃ d, Template.contextFor v values = .ok d ∧ d.resolver ref = .error obstacle.error := by
  have hnamed : (Context.mapping (.dict (ofNamed values))).resolver ref = .error obstacle.error := by
    rw [ofNamed_eq, resolver_entries, ← unbound_of_obstacle href]
    cases ref with
    | name name => cases href
    | position n => rfl
  unfold Template.contextFor
  dsimp only
  split
  · exact absurd rfl hvalues
  · exact ⟨_, rfl, hnamed⟩
  · rw [hc]
    refine ⟨_, rfl, ?_⟩
    rw [resolver_pair, hnamed, firstBound_obstacle_left]

end Contexts

/-! ## Named values in a dictionary -/

namespace Dict

theorem find?_cons_eq (entry : Value × Value) (entries : List (Value × Value)) (key : Value) :
    find? (entry :: entries) key =
      if entry.1.same key then some entry.2 else find? entries key := by
  unfold find?
  rw [List.find?_cons]
  by_cases h : entry.1.same key = true
  · rw [h, if_pos rfl]
    rfl
  · rw [Bool.eq_false_iff.2 h]
    rfl

/-- A key is equal to a name only if it is that name. -/
theorem same_str_iff {key : Value} {s : String} : key.same (.str s) = true ↔ key = .str s := by
  constructor
  · intro h
    cases key with
    | str t => rw [same_str, beq_iff_eq] at h; rw [h]
    | _ => simp [Value.same, Value.quantity?] at h
  · rintro rfl
    rw [same_str, beq_iff_eq]

theorem str_same_iff {key : Value} {s : String} : (Value.str s).same key = true ↔ key = .str s := by
  constructor
  · intro h
    cases key with
    | str t => rw [same_str, beq_iff_eq] at h; rw [h]
    | _ => simp [Value.same, Value.quantity?] at h
  · rintro rfl
    rw [same_str, beq_iff_eq]

/-- A value that is put under a name is found there and hides nothing else. -/
theorem find?_put_str (name : String) (v : Value) (entries : List (Value × Value)) (key : Value) :
    find? (put entries (.str name) v) key =
      if (Value.str name).same key then some v else find? entries key := by
  induction entries with
  | nil => rw [put, find?_cons_eq]
  | cons entry entries ih =>
    obtain ⟨key', v'⟩ := entry
    rw [put]
    by_cases hkey : key'.same (.str name) = true
    · rw [if_pos hkey, find?_cons_eq, find?_cons_eq, same_str_iff.1 hkey]
      split <;> rfl
    · rw [if_neg hkey, find?_cons_eq, find?_cons_eq, ih]
      by_cases hname : (Value.str name).same key = true
      · obtain rfl := str_same_iff.1 hname
        simp only [hkey, hname, if_pos, if_neg, Bool.false_eq_true, not_false_eq_true]
      · rw [if_neg hname, if_neg hname]

theorem foundIn_singleton (name : String) (v : Value) (ref : Ref) :
    foundIn [(name, v)] ref = if (Value.str name).same ref.toValue then some v else none := by
  cases ref with
  | name m =>
    rw [foundIn, lookup_cons_eq, Ref.toValue, same_str]
    by_cases hm : m = name
    · rw [if_pos hm, if_pos (beq_iff_eq.2 hm.symm)]
    · rw [if_neg hm, if_neg (by simpa using Ne.symm hm)]
      rfl
  | position n =>
    rw [Ref.toValue, same_str_int]
    rfl

/-- **Of a dictionary that named values were put into** a reference finds the value of its name, or
else what was there before. -/
theorem find?_union_entries (base : List (Value × Value)) (named : List (String × Value))
    (ref : Ref) :
    find? (union base (entries named)) ref.toValue =
      (foundIn (override [] named) ref).or (find? base ref.toValue) := by
  induction named generalizing base with
  | nil => cases ref <;> rfl
  | cons entry named ih =>
    obtain ⟨name, v⟩ := entry
    have hlater : foundIn (override [] ((name, v) :: named)) ref =
        (foundIn (override [] named) ref).or (foundIn [(name, v)] ref) :=
      foundIn_override [(name, v)] named ref
    show find? (union (put base (.str name) v) (entries named)) ref.toValue = _
    rw [ih, find?_put_str, hlater, Option.or_assoc, foundIn_singleton]
    congr 1
    split <;> rfl

end Dict

/-- Named values in front of a dictionary could as well be put into it. -/
theorem resolver_union_ofNamed (base : List (Value × Value)) (values : List (String × Value)) :
    (Context.mapping (.dict (union base (ofNamed values)))).resolver =
      (Context.mapping (.dict base)).resolver.withNamed values := by
  funext ref
  have hagain : override [] (override [] values) = override [] values :=
    override_nil_eq_self (nodup_override List.nodup_nil)
  rw [resolver_dict, ofNamed_eq, find?_union_entries, hagain, Resolver.withNamed, resolver_dict]
  cases foundIn (override [] values) ref <;> rfl

/-! ## Values that a placeholder cannot take -/

section Placeholders

variable {resolve : Resolver} {style : Style}

/-- What a placeholder wants. -/
def Placeholder.kindName (place : Placeholder) : String := if place.list then "list" else "scalar"

/-- Whether a value is a list where a placeholder wants one, and none where it does not. -/
def Placeholder.Takes (place : Placeholder) (v : Value) : Prop :=
  v.listItems?.isSome = place.list

instance (place : Placeholder) (v : Value) : Decidable (place.Takes v) :=
  inferInstanceAs (Decidable (_ = _))

/-- The atoms that a value gives: those of its items, or its own. -/
def Value.atoms (v : Value) : Except Error (List Atom) :=
  match v.listItems? with
  | some items => items.mapM Atom.ofValue
  | none => (Atom.ofValue v).map fun a => [a]

theorem except_mapM_map {ε α β γ : Type} {f : α → Except ε β} {g : β → γ} (xs : List α) :
    (xs.mapM fun x => (f x).map g) = (xs.mapM f).map (List.map g) := by
  induction xs with
  | nil => rfl
  | cons x xs ih =>
    simp only [List.mapM_cons, ih]
    cases f x with
    | error e => rfl
    | ok y => cases xs.mapM f <;> rfl

/-- A value of the kind that is wanted stands for the texts of its atoms. -/
theorem placeTexts_of_takes {place : Placeholder} {v : Value} (h : resolve place.ref = .ok v)
    (htakes : place.Takes v) (index : Nat) :
    placeTexts resolve index place =
      (v.atoms.map (List.map Atom.content)).mapError (Error.locate index place.ref.toValue) := by
  rw [placeTexts_of_ok h, Value.atoms, ← htakes]
  cases v.listItems? with
  | some items =>
    show items.mapM (scalarText index place.ref) = _
    rw [← except_mapM_map, except_mapError_mapM]
    rfl
  | none =>
    show (scalarText index place.ref v).map _ = _
    unfold scalarText
    cases Atom.ofValue v <;> rfl

/-- A value of the other kind is refused, whatever it is. -/
theorem placeTexts_of_not_takes {place : Placeholder} {v : Value} (h : resolve place.ref = .ok v)
    (hother : ¬ place.Takes v) (index : Nat) :
    placeTexts resolve index place =
      .error (mismatch index place.ref place.kindName v) := by
  unfold Placeholder.Takes at hother
  rw [placeTexts_of_ok h, Placeholder.kindName]
  cases hitems : v.listItems? with
  | some items =>
    rw [hitems, Option.isSome_some, eq_comm, Bool.not_eq_true] at hother
    rw [hother]
    rfl
  | none =>
    rw [hitems, Option.isSome_none, eq_comm, Bool.not_eq_false] at hother
    rw [hother]
    rfl

/-- What a value gives no atom for can be written. -/
theorem isWritable_of_atoms {v x : Value} {index : Option Nat} {ref : Option Value}
    (h : v.atoms = .error (.badAtom x index ref)) : x.IsWritable := by
  unfold Value.atoms at h
  split at h
  · obtain ⟨before, item, after, -, -, hitem⟩ := mapM_eq_error_iff.1 h
    exact (isWritable_of_ofValue hitem).1
  · exact (isWritable_of_ofValue (except_map_eq_error.1 h)).1

/-- **The first value that fails decides**: its error is that of the whole expansion. -/
theorem expandItems_of_first_failure {before : List Value} {item : Value} {line : String}
    {e : Error} (hbefore : expandItems style resolve before = .ok line)
    (hitem : tokenOfValue style resolve before.length item = .error e) (after : List Value) :
    expandItems style resolve (before ++ item :: after) = .error e := by
  obtain ⟨tokens, htokens, -⟩ := except_map_eq_ok.1 hbefore
  rw [expandItems, except_map_eq_error, tokensFrom_append, htokens, Nat.zero_add]
  simp only [tokensFrom, hitem]
  rfl

end Placeholders

/-! ## Templates with named values -/

/-- An expansion with named values is one against what they give in front of the context. -/
theorem Template.expand_eq_behind (t : Template) {v : Value} {c : Context}
    (hc : Context.ofValue v = .ok c) (hrefs : ∀ ref, Uses t.parts ref → ref.toValue.IsWritable)
    (values : List (String × Value)) :
    t.expand v values = expandItems t.style (c.resolver.behind values) t.parts := by
  obtain ⟨d, hd, hresolver⟩ := resolver_contextFor hc values
  rw [t.expand_of_contextFor hd]
  exact expandItems_agree fun ref huse => hresolver ref (hrefs ref huse) ▸ .same _

/-- **Named values come first, reference by reference, and nothing falls back from them.** If the
references can be written, an expansion with named values is one against what they give where they
have the name, and against the context otherwise. Where the first part that fails was given a named
value of the other kind, or one that is no atom, that is the error, whatever the context holds. Only
the values of names in use matter, so positions are left to the context. In front of a dictionary
the values could as well be put into it. -/
theorem Template.expand_named_values_first (t : Template) {v : Value} {c : Context}
    (hc : Context.ofValue v = .ok c) (hrefs : ∀ ref ∈ t.names, ref.toValue.IsWritable)
    (values : List (String × Value)) :
    t.expand v values = expandItems t.style (c.resolver.behind values) t.parts ∧
    (c.isCustom = false → c.resolver.behind values = c.resolver.withNamed values) ∧
    (∀ before place after w line, t.parts = before ++ .part (.placeholder place) :: after →
      Template.expand { t with parts := before } v values = .ok line →
      foundIn (override [] values) place.ref = some w →
        (¬ place.Takes w → t.expand v values =
          .error (.typeMismatch place.ref.toValue place.kindName w (some before.length))) ∧
        (place.Takes w → ∀ x, w.atoms = .error (.badAtom x none none) → t.expand v values =
          .error (.badAtom x (some before.length) (some place.ref.toValue)))) ∧
    (∀ others, (c.isCustom = false ∨ (values = [] ↔ others = [])) →
      (∀ name, .name name ∈ t.names →
        (override [] values).lookup name = (override [] others).lookup name) →
      t.expand v values = t.expand v others) ∧
    (∀ entries, c = .mapping (.dict entries) ∨ c = .frame (.dict entries) →
      t.expand v values = t.expand (.dict (union entries (ofNamed values))) []) := by
  have huses := t.listsFirstUses_names
  have hparts : ∀ ref, Uses t.parts ref → ref.toValue.IsWritable :=
    fun ref huse => hrefs ref ((huses.mem_iff ref).2 huse)
  have hexpand := t.expand_eq_behind hc hparts
  refine ⟨hexpand values, fun hcustom => behind_eq_withNamed hcustom values, ?_, ?_, ?_⟩
  · intro before place after w line hsplit hbefore hfound
    have hmem : ∀ u ∈ before, u ∈ t.parts := fun u hu => hsplit ▸ List.mem_append_left _ hu
    have hfront : ∀ ref, Uses before ref → ref.toValue.IsWritable :=
      fun ref ⟨u, hu, href⟩ => hparts ref ⟨u, hmem u hu, href⟩
    rw [Template.expand_eq_behind { t with parts := before } hc hfront values] at hbefore
    have href : place.ref.toValue.IsWritable :=
      hparts place.ref ⟨_, hsplit ▸ List.mem_append_right before List.mem_cons_self, rfl⟩
    have hgiven := behind_of_foundIn c.resolver hfound
    have hfails : ∀ e, placeTexts (c.resolver.behind values) before.length place = .error e →
        t.expand v values = .error e := by
      intro e he
      have hitem : tokenOfValue t.style (c.resolver.behind values) before.length
          (.part (.placeholder place)) = .error e := except_map_eq_error.2 he
      rw [hexpand, hsplit]
      exact expandItems_of_first_failure hbefore hitem after
    constructor
    · intro hother
      apply hfails
      rw [placeTexts_of_not_takes hgiven hother, mismatch, Error.raised_typeMismatch href]
    · intro htakes x hx
      apply hfails
      rw [placeTexts_of_takes hgiven htakes, hx]
      exact congrArg Except.error (Error.raised_badAtom_ref (isWritable_of_atoms hx) href _)
  · intro others hboth hsame
    refine (hexpand values).trans (.trans ?_ (hexpand others).symm)
    apply expandItems_agree
    intro ref huse
    have hfound : foundIn (override [] values) ref = foundIn (override [] others) ref := by
      cases ref with
      | name name => exact hsame name ((huses.mem_iff _).2 huse)
      | position n => rfl
    exact behind_congr hboth hfound ▸ .same _
  · intro entries hdict
    have hcustom : c.isCustom = false := by rcases hdict with rfl | rfl <;> rfl
    have hresolver : c.resolver = (Context.mapping (.dict entries)).resolver := by
      rcases hdict with rfl | rfl <;> rfl
    have hput : contextFor (.dict (union entries (ofNamed values))) [] =
        .ok (.mapping (.dict (union entries (ofNamed values)))) := rfl
    rw [hexpand, t.expand_of_contextFor hput, resolver_union_ofNamed, behind_eq_withNamed hcustom,
      hresolver]

/-- A template with a scalar, a position that takes a list, and a list. -/
def threePlaces : Template where
  source := none
  parts := [.part (.placeholder ⟨false, false, .name "to"⟩),
    .part (.placeholder ⟨false, true, .position 0⟩), .part (.placeholder ⟨true, true, .name "xs"⟩)]
  style := .minimal

/-- Values that each of its parts can take. -/
def usableEntries : List (Value × Value) :=
  [(.str "to", .str "a b"), (.int 0, .range 0 2 1), (.str "xs", .list [.str "c", .str "d"])]

theorem threePlaces_expand_named_values :
    Context.ofValue (.dict usableEntries) = .ok (.mapping (.dict usableEntries)) ∧
      threePlaces.expand (.dict usableEntries) [("xs", .tuple []), ("0", .null)] =
        .ok "'a b' 0 1 " ∧
      threePlaces.expand (.dict usableEntries) [("xs", .tuple []), ("0", .null)] =
        threePlaces.expand (.dict (union usableEntries
          (ofNamed [("xs", .tuple []), ("0", .null)]))) [] ∧
      threePlaces.expand (.dict usableEntries) [("xs", .str "e")] =
        .error (.typeMismatch (.str "xs") "list" (.str "e") (some 2)) ∧
      threePlaces.expand (.dict usableEntries) [("xs", .list [.int 1, .null])] =
        .error (.badAtom .null (some 2) (some (.str "xs"))) := by
  have hc : Context.ofValue (.dict usableEntries) = .ok (.mapping (.dict usableEntries)) := rfl
  have hrefs : ∀ ref ∈ threePlaces.names, ref.toValue.IsWritable := by decide
  obtain ⟨-, -, -, -, hdict⟩ :=
    threePlaces.expand_named_values_first hc hrefs [("xs", .tuple []), ("0", .null)]
  obtain ⟨-, -, hscalar, -, -⟩ :=
    threePlaces.expand_named_values_first hc hrefs [("xs", .str "e")]
  obtain ⟨-, -, hnull, -, -⟩ :=
    threePlaces.expand_named_values_first hc hrefs [("xs", .list [.int 1, .null])]
  refine ⟨hc, rfl, hdict _ (.inl rfl), ?_, ?_⟩
  · exact (hscalar (threePlaces.parts.take 2) ⟨true, true, .name "xs"⟩ [] (.str "e") "'a b' 0 1"
      rfl rfl rfl).1 (by decide)
  · exact (hnull (threePlaces.parts.take 2) ⟨true, true, .name "xs"⟩ [] (.list [.int 1, .null])
      "'a b' 0 1" rfl rfl rfl).2 rfl .null rfl

theorem single_expand_holding (ref : Ref) :
    (Template.single ref).expand (holding ref) [] = .ok "x" := by
  have hd : Template.contextFor (holding ref) [] = .ok (.mapping (holding ref)) := rfl
  rw [Template.expand_of_contextFor _ hd]
  show expandItems _ _ [.part (.placeholder ⟨false, false, ref⟩)] = _
  rw [expandItems_singleton, tokenOfValue, token, partTexts, placeTexts_of_ok (resolver_holding ref)]
  rfl

/-- A reference that cannot be written is given nothing behind named values. -/
theorem single_expand_obstacle {ref : Ref} {obstacle : Obstacle}
    (href : ref.toValue.obstacle? = some obstacle) (entry : String × Value) :
    (Template.single ref).expand (holding ref) [entry] = .error obstacle.error := by
  have hc : Context.ofValue (holding ref) = .ok (.mapping (holding ref)) := rfl
  obtain ⟨d, hd, hresolver⟩ := resolver_contextFor_obstacle hc (List.cons_ne_nil entry []) href
  rw [Template.expand_of_contextFor _ hd]
  exact expandItems_placeholder_obstacle ⟨false, false, ref⟩ hresolver

/-- **Named values are not simply put first** in all cases. A context of the caller's own that
reports another name is not heard behind them; a position that cannot be written is not found behind
them, although the context has it; and a value with an item that is no atom and cannot be written is
not refused for being none. -/
theorem single_expand_behind_named :
    (Template.single (.name "a")).expand (Template.reporting "b") [] =
        .error (.unresolved (.str "b") (some 0)) ∧
      (Template.single (.name "a")).expand (Template.reporting "b") [("w", .null)] =
        .error (.unresolved (.str "a") (some 0)) ∧
      (Template.single overlongPosition).expand (holding overlongPosition) [] = .ok "x" ∧
      (Template.single overlongPosition).expand (holding overlongPosition) [("w", .null)] =
        .error (.tooManyDigits none) ∧
      Template.expand ⟨none, [.part (.placeholder ⟨false, true, .name "v"⟩)], .minimal⟩
        (.dict [(.str "v", .list [.str "x"])]) [("v", .list [.bottomless])] =
          .error .nestedTooDeep :=
  ⟨rfl, rfl, single_expand_holding _, single_expand_obstacle (obstacle?_position le_rfl) _, rfl⟩

end ShellTemplate
