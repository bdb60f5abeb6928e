import Mathlib.Data.List.Induction
import Mathlib.Logic.Function.Basic
import ShellTemplate.Proofs.Lookups
import ShellTemplate.Template.Basic

/-!
# What an expansion depends on

The names of a template are the references that its parts use, in the order in which they are first
used. They are all that an expansion reads in a context, and it reads all of them.

* `Template.listsFirstUses_names` — the names are the references in use, by their first use.
* `expandItems_agree` — an expansion does not tell two resolvers apart that have the same outcome for
  the references in use, not even by its error.
* `exists_value_of_expandItems_ok` — an expansion that succeeds had a value for each of them.
* `Template.expand_depends_exactly_on_names` — all this for templates and contexts.
-/

set_option autoImplicit false

namespace ShellTemplate

open Shell

/-! ## The order of first use -/

/-- The index of the first value that uses a reference. -/
def firstUse (items : List Value) (ref : Ref) : Nat :=
  items.findIdx fun v => decide (v.ref? = some ref)

/-- Some references are those that values use, by their first use. -/
structure ListsFirstUses (items : List Value) (refs : List Ref) : Prop where
  mem_iff : ∀ ref, ref ∈ refs ↔ Uses items ref
  ordered : refs.Pairwise fun r s => firstUse items r < firstUse items s

section FirstUse

variable {items : List Value} {refs : List Ref} {r s : Ref}

theorem uses_append_singleton {v : Value} :
    Uses (items ++ [v]) r ↔ Uses items r ∨ v.ref? = some r := by
  simp [Uses, or_and_right, exists_or]

theorem firstUse_lt_length_iff : firstUse items r < items.length ↔ Uses items r := by
  simp [firstUse, Uses, List.findIdx_lt_length]

theorem firstUse_append (items more : List Value) (r : Ref) :
    firstUse (items ++ more) r =
      if firstUse items r < items.length then firstUse items r
      else firstUse more r + items.length :=
  List.findIdx_append

theorem firstUse_append_of_uses (h : Uses items r) (more : List Value) :
    firstUse (items ++ more) r = firstUse items r := by
  rw [firstUse_append, if_pos (firstUse_lt_length_iff.2 h)]

theorem firstUse_append_lt (hr : Uses items r) (hs : ¬Uses items s) (more : List Value) :
    firstUse (items ++ more) r < firstUse (items ++ more) s := by
  have hlt := firstUse_lt_length_iff.2 hr
  have hle : items.length ≤ firstUse (items ++ more) s := by
    rw [firstUse_append, if_neg (mt firstUse_lt_length_iff.1 hs)]
    exact Nat.le_add_left _ _
  rw [firstUse_append_of_uses hr]
  omega

theorem ListsFirstUses.nodup (h : ListsFirstUses items refs) : refs.Nodup := by
  refine h.ordered.imp ?_
  rintro r s hlt rfl
  exact Nat.lt_irrefl _ hlt

theorem ListsFirstUses.ordered_append (h : ListsFirstUses items refs) (more : List Value) :
    refs.Pairwise fun r s => firstUse (items ++ more) r < firstUse (items ++ more) s := by
  refine h.ordered.imp_of_mem fun {r s} hr hs hlt => ?_
  rwa [firstUse_append_of_uses ((h.mem_iff r).1 hr), firstUse_append_of_uses ((h.mem_iff s).1 hs)]

/-- The references seen so far, and that of one more value if it is new. -/
def seenAfter (seen : List Ref) (v : Value) : List Ref :=
  match v.ref? with
  | some ref => if ref ∈ seen then seen else seen ++ [ref]
  | none => seen

/-- One more value keeps what is seen in the order of first use. -/
theorem ListsFirstUses.step {seen : List Ref} (h : ListsFirstUses items seen) (v : Value) :
    ListsFirstUses (items ++ [v]) (seenAfter seen v) := by
  unfold seenAfter
  split
  · next ref href =>
    split
    · next hmem =>
      refine ⟨fun r => ?_, h.ordered_append [v]⟩
      rw [uses_append_singleton, h.mem_iff, href]
      refine ⟨Or.inl, ?_⟩
      rintro (hr | hr)
      · exact hr
      · cases hr
        exact (h.mem_iff ref).1 hmem
    · next hnew =>
      refine ⟨fun r => ?_, ?_⟩
      · rw [uses_append_singleton, List.mem_append, List.mem_singleton, h.mem_iff, href,
          Option.some.injEq, eq_comm (a := r)]
      · refine List.pairwise_append.2 ⟨h.ordered_append [v], List.pairwise_singleton _ ref, ?_⟩
        rintro r hr s hs
        rw [List.mem_singleton.1 hs]
        exact firstUse_append_lt ((h.mem_iff r).1 hr) (mt (h.mem_iff ref).2 hnew) [v]
  · next hnone =>
    refine ⟨fun r => ?_, h.ordered_append [v]⟩
    rw [uses_append_singleton, h.mem_iff, hnone]
    refine ⟨Or.inl, ?_⟩
    rintro (hr | hr)
    · exact hr
    · cases hr

theorem listsFirstUses_foldl (items : List Value) :
    ListsFirstUses items (items.foldl seenAfter []) := by
  -- From the right: whether a use is the first one hangs on the values before it.
  induction items using List.reverseRecOn with
  | nil => exact ⟨fun ref => ⟨nofun, nofun⟩, .nil⟩
  | append_singleton items v ih =>
    rw [List.foldl_append]
    exact ih.step v

end FirstUse

namespace Template

theorem names_eq_foldl (t : Template) : t.names = t.parts.foldl seenAfter [] := by
  unfold names Part.references partsOf
  rw [List.filterMap_filterMap, List.foldl_filterMap]
  refine congrArg (fun f => List.foldl f [] t.parts) (funext fun seen => funext fun v => ?_)
  cases v with
  | part p => cases p <;> rfl
  | _ => rfl

theorem listsFirstUses_names (t : Template) : ListsFirstUses t.parts t.names :=
  t.names_eq_foldl ▸ listsFirstUses_foldl t.parts

end Template

/-! ## What an expansion reads -/

/-- Two look-ups give the same value, or fail in the same way, or both say that a reference is
unbound and report the same one. -/
inductive SameOutcome : Except Error Value → Except Error Value → Prop where
  | same (r : Except Error Value) : SameOutcome r r
  | unresolved (ref : Value) (index index' : Option Nat) :
    SameOutcome (.error (.unresolved ref index)) (.error (.unresolved ref index'))

section Reading

variable {style : Style} {resolve resolve' : Resolver} {items : List Value}

theorem lookUp_agree {ref : Ref} (h : SameOutcome (resolve ref) (resolve' ref)) (index : Nat) :
    lookUp resolve index ref = lookUp resolve' index ref := by
  unfold lookUp
  generalize resolve ref = r at h
  generalize resolve' ref = r' at h
  cases h <;> rfl

/-- A token depends on what its own reference is resolved to, and on nothing else in a context. -/
theorem tokenOfValue_agree {index : Nat} {v : Value}
    (h : ∀ ref, v.ref? = some ref → SameOutcome (resolve ref) (resolve' ref)) :
    tokenOfValue style resolve index v = tokenOfValue style resolve' index v := by
  unfold tokenOfValue
  split
  · next part =>
    cases part with
    | literal a => rfl
    | placeholder place =>
      simp only [token, partTexts, placeTexts, lookUp_agree (h place.ref rfl) index]
  · rfl

theorem tokensFrom_agree {index : Nat}
    (h : ∀ ref, Uses items ref → SameOutcome (resolve ref) (resolve' ref)) :
    tokensFrom style resolve index items = tokensFrom style resolve' index items := by
  induction items generalizing index with
  | nil => rfl
  | cons v items ih =>
    have hv : ∀ ref, v.ref? = some ref → SameOutcome (resolve ref) (resolve' ref) :=
      fun ref href => h ref ⟨v, List.mem_cons_self, href⟩
    have hitems : ∀ ref, Uses items ref → SameOutcome (resolve ref) (resolve' ref) := by
      rintro ref ⟨w, hw, href⟩
      exact h ref ⟨w, List.mem_cons_of_mem v hw, href⟩
    simp only [tokensFrom, tokenOfValue_agree hv, ih hitems]

/-- **Resolvers with the same outcome for the references in use** give the same line or the same
error. -/
theorem expandItems_agree (h : ∀ ref, Uses items ref → SameOutcome (resolve ref) (resolve' ref)) :
    expandItems style resolve items = expandItems style resolve' items := by
  rw [expandItems, expandItems, tokensFrom_agree h]

theorem exists_token_of_tokensFrom_ok {index : Nat} {tokens : List String}
    (h : tokensFrom style resolve index items = .ok tokens) {v : Value} (hv : v ∈ items) :
    ∃ i t, tokenOfValue style resolve i v = .ok t := by
  induction items generalizing index tokens with
  | nil => cases hv
  | cons w items ih =>
    obtain ⟨t, ht, h⟩ := except_bind_eq_ok.1 h
    obtain ⟨rest, hrest, -⟩ := except_bind_eq_ok.1 h
    rcases List.mem_cons.1 hv with rfl | hv
    · exact ⟨index, t, ht⟩
    · exact ih hrest hv

/-- **An expansion that succeeds** had a value for every reference in use. -/
theorem exists_value_of_expandItems_ok {line : String}
    (h : expandItems style resolve items = .ok line) {ref : Ref} (huse : Uses items ref) :
    ∃ value, resolve ref = .ok value := by
  obtain ⟨tokens, htokens, -⟩ := except_map_eq_ok.1 h
  obtain ⟨v, hv, href⟩ := huse
  obtain ⟨i, t, ht⟩ := exists_token_of_tokensFrom_ok htokens hv
  unfold tokenOfValue at ht
  split at ht
  · next part =>
    obtain ⟨texts, hdenotes, -⟩ := token_eq_ok.1 ht
    cases hdenotes with
    | literal a => cases href
    | scalar bound _ _ =>
      cases href
      exact ⟨_, bound⟩
    | list bound _ _ =>
      cases href
      exact ⟨_, bound⟩
  · cases ht

theorem exists_error_of_unresolved {ref : Ref} (huse : Uses items ref) {e : Error}
    (h : resolve ref = .error e) : ∃ e', expandItems style resolve items = .error e' := by
  cases hexpand : expandItems style resolve items with
  | error e' => exact ⟨e', rfl⟩
  | ok line =>
    obtain ⟨value, hvalue⟩ := exists_value_of_expandItems_ok hexpand huse
    cases h.symm.trans hvalue

end Reading

/-! ## Templates -/

namespace Template

theorem expand_of_contextFor (t : Template) {v : Value} {vs : List (String × Value)} {c : Context}
    (h : contextFor v vs = .ok c) : t.expand v vs = expandItems t.style c.resolver t.parts := by
  rw [expand, h]
  rfl

/-- **The names of a template are exactly what its expansions depend on.** They are the references
that the parts use, each once and by its first use. Contexts, also of the caller's own, that give the
same outcome for each of them give the same line or the same error, and contexts that are not of the
caller's own leave a reference unbound with the same outcome; where one of the names has no value
there is no line; and a line that was given would not have been without any of them. -/
theorem expand_depends_exactly_on_names (t : Template) :
    t.names.Nodup ∧ ListsFirstUses t.parts t.names ∧
    (∀ v vs w ws c d, contextFor v vs = .ok c → contextFor w ws = .ok d →
      (∀ ref ∈ t.names, SameOutcome (c.resolver ref) (d.resolver ref)) →
        t.expand v vs = t.expand w ws) ∧
    (∀ (c d : Context) (ref : Ref) q q' index index', c.isCustom = false → d.isCustom = false →
      c.resolver ref = .error (.unresolved q index) →
      d.resolver ref = .error (.unresolved q' index') →
        SameOutcome (c.resolver ref) (d.resolver ref)) ∧
    ∀ v vs c, contextFor v vs = .ok c → ∀ ref ∈ t.names,
      (∀ e, c.resolver ref = .error e → ∃ e', t.expand v vs = .error e') ∧
      ∀ line, t.expand v vs = .ok line → (∃ value, c.resolver ref = .ok value) ∧
        ∀ e, ∃ e', expandItems t.style (Function.update c.resolver ref (.error e)) t.parts =
          .error e' := by
  have hnames := t.listsFirstUses_names
  refine ⟨hnames.nodup, hnames, ?_, ?_, ?_⟩
  · intro v vs w ws c d hc hd hsame
    rw [t.expand_of_contextFor hc, t.expand_of_contextFor hd]
    exact expandItems_agree fun ref huse => hsame ref ((hnames.mem_iff ref).2 huse)
  · intro c d ref q q' index index' hcustom hcustom' hc hd
    have hc' : c.resolver ref = .error (unbound ref.toValue) := c.resolve_unresolved hcustom hc
    have hd' : d.resolver ref = .error (unbound ref.toValue) := d.resolve_unresolved hcustom' hd
    exact hc'.trans hd'.symm ▸ .same _
  · intro v vs c hc ref href
    have huse : Uses t.parts ref := (hnames.mem_iff ref).1 href
    rw [t.expand_of_contextFor hc]
    refine ⟨fun e he => exists_error_of_unresolved huse he, fun line hline => ?_⟩
    refine ⟨exists_value_of_expandItems_ok hline huse, fun e => ?_⟩
    exact exists_error_of_unresolved huse (Function.update_self ref (.error e) c.resolver)

/-- A template that uses a name twice and a position in between. -/
def mixedRefs : Template where
  source := none
  parts := [.part (.literal (.identifier "cp")), .part (.placeholder ⟨false, false, .name "x"⟩),
    .part (.placeholder ⟨false, true, .position 0⟩), .part (.placeholder ⟨true, false, .name "x"⟩)]
  style := .minimal

/-- A dictionary with more than the template asks for. -/
def mixedValues : Value :=
  .dict [(.str "y", .null), (.str "x", .str "a b"), (.int 0, .list [.int 1, .int 2])]

theorem mixedRefs_expand_depends_on_names :
    mixedRefs.names = [.name "x", .position 0] ∧
      mixedRefs.expand mixedValues [] = .ok "cp 'a b' 1 2 a b" ∧
      mixedRefs.expand mixedValues [] =
        mixedRefs.expand (.list [.list [.int 1, .int 2]]) [("x", .str "a b")] ∧
      (∃ e', mixedRefs.expand (.list [.list [], .null]) [] = .error e') ∧
      ∀ e, ∃ e', expandItems .minimal
        (Function.update (Context.mapping mixedValues).resolver (.position 0) (.error e))
        mixedRefs.parts = .error e' := by
  have hline : mixedRefs.expand mixedValues [] = .ok "cp 'a b' 1 2 a b" := rfl
  have hnames : mixedRefs.names = [.name "x", .position 0] := rfl
  have hx : Ref.name "x" ∈ mixedRefs.names := by decide
  have hzero : Ref.position 0 ∈ mixedRefs.names := by decide
  obtain ⟨-, -, hagree, -, hread⟩ := expand_depends_exactly_on_names mixedRefs
  refine ⟨hnames, hline, hagree _ _ _ _ _ _ rfl rfl ?_, ?_, ?_⟩
  · intro ref href
    obtain rfl | rfl : ref = .name "x" ∨ ref = .position 0 := by simpa [hnames] using href
    · exact .same (.ok (.str "a b"))
    · exact .same (.ok (.list [.int 1, .int 2]))
  · exact (hread _ [] _ rfl _ hx).1 _ rfl
  · exact ((hread _ [] _ rfl _ hzero).2 _ hline).2

/-- A context of the caller's own that has no value for anything and reports another name. -/
def reporting (name : String) : Value :=
  .context (.custom "Aliases" "<Aliases object>" fun _ => .error (.unresolved (.str name) none))

/-- A template with one scalar. -/
def single (ref : Ref) : Template where
  source := none
  parts := [.part (.placeholder ⟨false, false, ref⟩)]
  style := .minimal

/-- **Two contexts without a value for a name can give different errors**: of the caller's own, if
they report different names, and a list that is looked up by key, since a position behind its end is
none of the errors that say that a reference is unbound. -/
theorem single_expand_tells_apart :
    (single (.name "a")).names = [.name "a"] ∧
      (single (.name "a")).expand (reporting "b") [] =
        .error (.unresolved (.str "b") (some 0)) ∧
      (single (.name "a")).expand (reporting "c") [] =
        .error (.unresolved (.str "c") (some 0)) ∧
      (single (.position 0)).names = [.position 0] ∧
      (single (.position 0)).expand (.context (.mapping (.list []))) [] =
        .error (.indexOutOfRange "list") ∧
      (single (.position 0)).expand (.dict []) [] = .error (.unresolved (.int 0) (some 0)) :=
  ⟨rfl, rfl, rfl, rfl, rfl, rfl⟩

end Template

end ShellTemplate
