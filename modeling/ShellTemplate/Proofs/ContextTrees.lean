import Mathlib.Algebra.Group.Int.Defs
import Mathlib.Algebra.Group.Nat.Defs
import ShellTemplate.Proofs.Lookups

/-!
# Trees of chains

A chain asks its members in turn, and a member may be a chain again. However the chains are nested,
what counts is the row of their leaves: a reference gets the value of the leftmost leaf that binds
it, whatever the value is, and is unbound if there is none. Nothing else can happen.

* `Context.resolve_eq_resolveFirst_leaves` — a context is the row of its leaves, for references that
  can be written.
* `Dict.binds_congr_of_quantity` — `1`, `1.0` and `True` are bound alike by a dictionary.
* `GivesExactly` — giving what is bound, and nothing but that.
* `Value.exists_servesAs` — each leaf gives exactly what it binds.
* `givesExactly_resolveFirst` — a row of leaves gives what the leftmost of them binds.
* `ContextTree.resolve_leftmost_binding` — so does a tree.
-/

set_option autoImplicit false

namespace ShellTemplate

/-! ## Leaves of contexts -/

mutual

/-- **A context is the row of its leaves**, but for the reference that it reports as unbound. -/
theorem Context.resolveFirst_leaves : ∀ (c : Context) {ref : Value}, ref.IsWritable →
    Context.resolveFirst c.leaves ref = firstBound (c.resolve ref) (.error (unbound ref))
  | .mapping _, _, _ => rfl
  | .frame _, _, _ => rfl
  | .sequence _, _, _ => rfl
  | .custom _ _ _, _, _ => rfl
  | .chain members, _, h => Context.resolveFirst_leavesOf members h

theorem Context.resolveFirst_leavesOf : ∀ (members : List Context) {ref : Value}, ref.IsWritable →
    Context.resolveFirst (Context.leavesOf members) ref =
      firstBound (Context.resolveFirst members ref) (.error (unbound ref))
  | [], _, _ => (firstBound_self _).symm
  | c :: rest, ref, h => by
    rw [resolveFirst_cons, Context.leavesOf, resolveFirst_append h, Context.resolveFirst_leaves c h,
      Context.resolveFirst_leavesOf rest h, firstBound_assoc, firstBound_assoc,
      firstBound_unbound_left h]

end

/-- A dictionary binds a reference to a value: the reference can be a key, and the value is that of
the first entry whose key equals it. -/
structure Dict.Binds (entries : List (Value × Value)) (ref v : Value) : Prop where
  hashable : ref.unhashable? = none
  first : ∃ before key after, entries = before ++ (key, v) :: after ∧ key.same ref = true ∧
    ∀ entry ∈ before, entry.1.same ref = false

/-- The items at positions bind a reference to a value: the reference is the position of the value.
Truth values are no positions. -/
def PositionBinds (items : List Value) (ref v : Value) : Prop :=
  ∃ n : Nat, ref = .int n ∧ items[n]? = some v

/-- Numbers that denote the same quantity are bound alike by a dictionary, but only whole numbers
are positions. -/
theorem Dict.binds_congr_of_quantity {entries : List (Value × Value)} {x y v : Value} {q : Quantity}
    (hx : x.quantity? = some q) (hy : y.quantity? = some q) :
    Dict.Binds entries x v ↔ Dict.Binds entries y v := by
  have hkey : ∀ key : Value, key.same x = key.same y := same_congr_of_quantity hx hy
  constructor
  · rintro ⟨-, hfirst⟩
    refine ⟨unhashable?_of_quantity hy, ?_⟩
    simpa only [hkey] using hfirst
  · rintro ⟨-, hfirst⟩
    refine ⟨unhashable?_of_quantity hx, ?_⟩
    simpa only [hkey] using hfirst

/-- What a leaf holds: values under keys or items at positions. -/
inductive Holding where
  | keyed (entries : List (Value × Value))
  | placed (items : List Value)

/-- What is held binds a reference to a value. -/
def Holding.Binds : Holding → Value → Value → Prop
  | .keyed entries => Dict.Binds entries
  | .placed items => PositionBinds items

/-- What the values hold that stand at the leaves of a tree: nothing, dictionaries, the lists,
tuples and ranges that are not longer than the greatest index, and the contexts over these. -/
inductive Value.Holds : Value → Holding → Prop where
  | null : Holds .null (.keyed [])
  | dict (entries : List (Value × Value)) : Holds (.dict entries) (.keyed entries)
  | listed {v : Value} {items : List Value} (hitems : v.listItems? = some items)
    (length_le : items.length ≤ maxIndex) : Holds v (.placed items)
  | mapping (entries : List (Value × Value)) :
    Holds (.context (.mapping (.dict entries))) (.keyed entries)
  | frame (entries : List (Value × Value)) :
    Holds (.context (.frame (.dict entries))) (.keyed entries)
  | sequence {v : Value} {items : List Value} (hitems : v.listItems? = some items)
    (length_le : items.length ≤ maxIndex) : Holds (.context (.sequence v)) (.placed items)

/-- A value that can stand at a leaf. -/
def Value.IsLeaf (v : Value) : Prop := ∃ holding, v.Holds holding

/-- A leaf binds a reference to a value. -/
def Value.Binds (leaf ref v : Value) : Prop := ∃ holding, leaf.Holds holding ∧ holding.Binds ref v

theorem Value.Holds.unique {leaf : Value} {holding other : Holding} (h : leaf.Holds holding)
    (h' : leaf.Holds other) : holding = other := by
  cases h with
  | null => cases h' with
    | null => rfl
    | listed hitems => cases hitems
  | dict entries => cases h' with
    | dict => rfl
    | listed hitems => cases hitems
  | listed hitems => cases h' with
    | listed hitems' =>
      cases hitems.symm.trans hitems'
      rfl
    | _ => cases hitems
  | mapping entries => cases h' with
    | mapping => rfl
    | listed hitems => cases hitems
  | frame entries => cases h' with
    | frame => rfl
    | listed hitems => cases hitems
  | sequence hitems => cases h' with
    | sequence hitems' =>
      cases hitems.symm.trans hitems'
      rfl
    | listed hitems' => cases hitems'

theorem Value.Holds.binds_iff {leaf ref v : Value} {holding : Holding} (h : leaf.Holds holding) :
    leaf.Binds ref v ↔ holding.Binds ref v := by
  constructor
  · rintro ⟨other, hother, hbinds⟩
    rwa [h.unique hother]
  · intro hbinds
    exact ⟨holding, h, hbinds⟩

/-- The outcome of looking a reference up is the value that it is bound to, or that it is unbound;
there is no third way. -/
structure GivesExactly (ref : Value) (outcome : Except Error Value) (binds : Value → Prop) :
    Prop where
  ok_iff : ∀ v, outcome = .ok v ↔ binds v
  eq_unbound : ∀ e, outcome = .error e → e = unbound ref

section Leaves

variable {ref : Value} {outcome : Except Error Value} {binds : Value → Prop}
  {entries : List (Value × Value)} {values : Value} {items : List Value}

theorem GivesExactly.error_iff (h : GivesExactly ref outcome binds) (e : Error) :
    outcome = .error e ↔ e = unbound ref ∧ ∀ v, ¬ binds v := by
  constructor
  · intro he
    refine ⟨h.eq_unbound e he, ?_⟩
    intro v hv
    cases ((h.ok_iff v).2 hv).symm.trans he
  · rintro ⟨rfl, hnone⟩
    cases houtcome : outcome with
    | ok v => exact absurd ((h.ok_iff v).1 houtcome) (hnone v)
    | error e => rw [h.eq_unbound e houtcome]

theorem GivesExactly.unique {outcome' : Except Error Value} (h : GivesExactly ref outcome binds)
    (h' : GivesExactly ref outcome' binds) : outcome = outcome' := by
  cases houtcome : outcome with
  | ok v => exact ((h'.ok_iff v).2 ((h.ok_iff v).1 houtcome)).symm
  | error e => exact ((h'.error_iff e).2 ((h.error_iff e).1 houtcome)).symm

theorem GivesExactly.congr {others : Value → Prop} (h : GivesExactly ref outcome binds)
    (hiff : ∀ v, binds v ↔ others v) : GivesExactly ref outcome others :=
  ⟨fun v => (h.ok_iff v).trans (hiff v), h.eq_unbound⟩

theorem givesExactly_unbound (hnone : ∀ v, ¬ binds v) :
    GivesExactly ref (.error (unbound ref)) binds := by
  refine ⟨fun v => ⟨fun h => (by cases h), fun h => absurd h (hnone v)⟩, ?_⟩
  rintro e ⟨⟩
  rfl

theorem dict_find?_eq_some_iff {ref v : Value} :
    Dict.find? entries ref = some v ↔ ∃ before key after, entries = before ++ (key, v) :: after ∧
      key.same ref = true ∧ ∀ entry ∈ before, entry.1.same ref = false := by
  unfold Dict.find?
  rw [Option.map_eq_some_iff]
  constructor
  · rintro ⟨⟨key, w⟩, hfind, rfl⟩
    obtain ⟨hsame, before, after, hentries, hbefore⟩ := List.find?_eq_some_iff_append.1 hfind
    refine ⟨before, key, after, hentries, hsame, ?_⟩
    intro entry hentry
    simpa using hbefore entry hentry
  · rintro ⟨before, key, after, hentries, hsame, hbefore⟩
    refine ⟨(key, v), List.find?_eq_some_iff_append.2 ⟨hsame, before, after, hentries, ?_⟩, rfl⟩
    intro entry hentry
    simp [hbefore entry hentry]

theorem givesExactly_resolveKey (entries : List (Value × Value)) (ref : Value) :
    GivesExactly ref (resolveKey (.dict entries) ref) (Dict.Binds entries ref) := by
  cases hkey : ref.unhashable? with
  | some w =>
    rw [resolveKey_of_unhashable hkey]
    refine givesExactly_unbound fun v h => ?_
    cases hkey.symm.trans h.hashable
  | none =>
    cases hfind : Dict.find? entries ref with
    | none =>
      rw [resolveKey_of_find?_eq_none hkey hfind]
      refine givesExactly_unbound fun v h => ?_
      cases hfind.symm.trans (dict_find?_eq_some_iff.2 h.first)
    | some w =>
      rw [resolveKey_of_find? hkey hfind]
      refine ⟨fun v => ?_, fun e h => by cases h⟩
      rw [Except.ok.injEq, ← Option.some.injEq, ← hfind, dict_find?_eq_some_iff]
      exact ⟨fun h => ⟨hkey, h⟩, fun h => h.first⟩

theorem positionBinds_natCast_iff {n : Nat} {v : Value} :
    PositionBinds items (.int n) v ↔ items[n]? = some v := by
  constructor
  · rintro ⟨m, hm, hv⟩
    have heq : (n : Int) = m := Value.int.inj hm
    obtain rfl : n = m := by omega
    exact hv
  · intro hv
    exact ⟨n, rfl, hv⟩

/-- A reference is a position among the items or it is unbound. -/
theorem resolvePosition_cases (hitems : values.listItems? = some items)
    (hmax : items.length ≤ maxIndex) (ref : Value) :
    (∃ n : Nat, ∃ hn : n < items.length, ref = .int n ∧
      resolvePosition values ref = .ok items[n]) ∨
    ((∀ v, ¬ PositionBinds items ref v) ∧
      resolvePosition values ref = .error (unbound ref)) := by
  by_cases hnat : ∃ n : Nat, ref = .int n
  · obtain ⟨n, rfl⟩ := hnat
    rcases Nat.lt_or_ge n items.length with hn | hn
    · exact Or.inl ⟨n, hn, rfl, resolvePosition_of_lt hitems hmax hn⟩
    · refine Or.inr ⟨?_, resolvePosition_of_le hitems hmax hn⟩
      intro v hv
      rw [positionBinds_natCast_iff, List.getElem?_eq_none hn] at hv
      cases hv
  · refine Or.inr ⟨?_, ?_⟩
    · rintro v ⟨n, hn, -⟩
      exact hnat ⟨n, hn⟩
    · cases ref with
      | int n =>
        apply resolvePosition_of_neg
        by_contra hneg
        apply hnat
        exact ⟨n.toNat, by rw [Int.toNat_of_nonneg (by omega)]⟩
      | _ => rfl

theorem givesExactly_resolvePosition (hitems : values.listItems? = some items)
    (hmax : items.length ≤ maxIndex) (ref : Value) :
    GivesExactly ref (resolvePosition values ref) (PositionBinds items ref) := by
  rcases resolvePosition_cases hitems hmax ref with ⟨n, hn, rfl, hresolve⟩ | ⟨hnone, hresolve⟩
  · rw [hresolve]
    refine ⟨fun v => ?_, fun e h => by cases h⟩
    rw [positionBinds_natCast_iff, List.getElem?_eq_getElem hn, Except.ok.injEq,
      Option.some.injEq]
  · rw [hresolve]
    exact givesExactly_unbound hnone

theorem ofValue_of_listItems? (hitems : values.listItems? = some items) :
    Context.ofValue values = .ok (.sequence values) := by
  cases values with
  | list _ | bottomless | tuple _ | range _ _ _ => rfl
  | _ => cases hitems

/-- Some context is made of a single leaf and gives exactly what is bound for each reference. -/
structure ServesAs (c : Context) (binds : Value → Value → Prop) : Prop where
  leaves_eq : c.leaves = [c]
  isCustom_eq : c.isCustom = false
  gives : ∀ ref, GivesExactly ref (c.resolve ref) (binds ref)

theorem servesAs_of_holds {leaf : Value} {holding : Holding} (h : leaf.Holds holding) :
    ∃ c, Context.ofValue leaf = .ok c ∧ ServesAs c holding.Binds := by
  cases h with
  | null => exact ⟨.empty, rfl, rfl, rfl, givesExactly_resolveKey []⟩
  | dict entries => exact ⟨.mapping (.dict entries), rfl, rfl, rfl, givesExactly_resolveKey entries⟩
  | listed hitems length_le =>
    exact ⟨.sequence leaf, ofValue_of_listItems? hitems, rfl, rfl,
      givesExactly_resolvePosition hitems length_le⟩
  | mapping entries =>
    exact ⟨.mapping (.dict entries), rfl, rfl, rfl, givesExactly_resolveKey entries⟩
  | frame entries => exact ⟨.frame (.dict entries), rfl, rfl, rfl, givesExactly_resolveKey entries⟩
  | @sequence values items hitems length_le =>
    exact ⟨.sequence values, rfl, rfl, rfl, givesExactly_resolvePosition hitems length_le⟩

/-- **A leaf serves as a context without members** that gives exactly what the leaf binds. -/
theorem Value.exists_servesAs {leaf : Value} (h : leaf.IsLeaf) :
    ∃ c, Context.ofValue leaf = .ok c ∧ ServesAs c leaf.Binds := by
  obtain ⟨holding, hholds⟩ := h
  obtain ⟨c, hc, hserves⟩ := servesAs_of_holds hholds
  refine ⟨c, hc, hserves.leaves_eq, hserves.isCustom_eq, fun ref => ?_⟩
  exact (hserves.gives ref).congr fun v => hholds.binds_iff.symm

end Leaves

/-! ## Rows of leaves -/

/-- How a chain is built: each member is a value or a chain again. -/
inductive ContextTree where
  | leaf (v : Value)
  | chain (members : List ContextTree)

mutual

/-- The value that a tree is: that of its leaf, or a chain over the values of its members. -/
def ContextTree.value : ContextTree → Except Error Value
  | .leaf v => .ok v
  | .chain members => do
    let values ← ContextTree.valuesOf members
    let c ← Context.chainOf values
    return .context c
termination_by structural tree => tree

/-- The values that some trees are. -/
def ContextTree.valuesOf : List ContextTree → Except Error (List Value)
  | [] => .ok []
  | tree :: rest => do
    let v ← tree.value
    let values ← ContextTree.valuesOf rest
    return v :: values
termination_by structural members => members

end

/-- The context that a tree serves as. -/
def ContextTree.context (tree : ContextTree) : Except Error Context := do
  Context.ofValue (← tree.value)

mutual

/-- The leaves of a tree, from left to right. -/
def ContextTree.leaves : ContextTree → List Value
  | .leaf v => [v]
  | .chain members => ContextTree.leavesOf members
termination_by structural tree => tree

/-- The leaves of some trees, from left to right. -/
def ContextTree.leavesOf : List ContextTree → List Value
  | [] => []
  | tree :: rest => tree.leaves ++ ContextTree.leavesOf rest
termination_by structural members => members

end

mutual

/-- The leaf that a tree asks first. A tree that begins with an empty chain has none. -/
def ContextTree.front? : ContextTree → Option Value
  | .leaf v => some v
  | .chain members => ContextTree.frontOf? members
termination_by structural tree => tree

/-- The leaf that some trees ask first. -/
def ContextTree.frontOf? : List ContextTree → Option Value
  | [] => none
  | tree :: _ => tree.front?
termination_by structural members => members

end

namespace ContextTree

/-- The contexts at the leaves of a tree, each with the leaf whose bindings it gives. -/
abbrev Serve (leaves : List Value) (contexts : List Context) : Prop :=
  ∀ ref, List.Forall₂ (fun leaf c => GivesExactly ref (c.resolve ref) (leaf.Binds ref))
    leaves contexts

/-- Of a reference that cannot be written a look-up gives what the first leaf binds, because nobody
else is asked. -/
def FrontGives (front : Option Value) (resolve : Value → Except Error Value) : Prop :=
  ∀ ref obstacle, ref.obstacle? = some obstacle →
    GivesExactly ref (resolve ref) fun v => ∃ leaf, front = some leaf ∧ leaf.Binds ref v

theorem FrontGives.resolveFirst {front : Option Value} {c : Context} (h : FrontGives front c.resolve)
    (rest : List Context) : FrontGives front (Context.resolveFirst (c :: rest)) := by
  intro ref obstacle href
  have hc := h ref obstacle href
  rw [resolveFirst_cons]
  cases hresolve : c.resolve ref with
  | ok v =>
    rw [hresolve] at hc
    exact hc
  | error e =>
    obtain ⟨rfl, hnone⟩ := (hc.error_iff e).1 hresolve
    rw [unbound_of_obstacle href, firstBound_obstacle_left, ← unbound_of_obstacle href]
    exact givesExactly_unbound hnone

mutual

/-- A tree is accepted, and its context has the leaves of the tree. -/
theorem exists_serve : ∀ (tree : ContextTree), (∀ leaf ∈ tree.leaves, leaf.IsLeaf) →
    ∃ v c, tree.value = .ok v ∧ Context.ofValue v = .ok c ∧ c.isCustom = false ∧
      Serve tree.leaves c.leaves ∧ FrontGives tree.front? c.resolve
  | .leaf v, h => by
    obtain ⟨c, hc, hserves⟩ := Value.exists_servesAs (h v (by simp [leaves]))
    refine ⟨v, c, rfl, hc, hserves.isCustom_eq, fun ref => ?_, fun ref obstacle _ => ?_⟩
    · rw [hserves.leaves_eq]
      exact .cons (hserves.gives ref) .nil
    · refine (hserves.gives ref).congr fun w => ?_
      simp [front?]
  | .chain members, h => by
    obtain ⟨values, contexts, hvalues, hcontexts, hserve, hfront⟩ := exists_serveAll members h
    -- a chain is a context already, so it serves as itself
    refine ⟨.context (.chain contexts), .chain contexts, ?_, rfl, rfl, hserve, hfront⟩
    have hchain : Context.chainOf values = .ok (.chain contexts) := by
      rw [Context.chainOf, hcontexts]
      rfl
    rw [value, hvalues]
    show (Context.chainOf values >>= fun c => pure (Value.context c)) = _
    rw [hchain]
    rfl

theorem exists_serveAll : ∀ (members : List ContextTree),
    (∀ leaf ∈ leavesOf members, leaf.IsLeaf) →
      ∃ values contexts, valuesOf members = .ok values ∧
        values.mapM Context.ofValue = .ok contexts ∧
        Serve (leavesOf members) (Context.leavesOf contexts) ∧
        FrontGives (frontOf? members) (Context.resolveFirst contexts)
  | [], _ => by
    refine ⟨[], [], rfl, rfl, fun _ => .nil, fun ref obstacle _ => ?_⟩
    refine givesExactly_unbound ?_
    rintro v ⟨leaf, hleaf, -⟩
    cases hleaf
  | tree :: rest, h => by
    rw [leavesOf, List.forall_mem_append] at h
    obtain ⟨v, c, hv, hc, -, hserve, hfront⟩ := exists_serve tree h.1
    obtain ⟨values, contexts, hvalues, hcontexts, hrest, -⟩ := exists_serveAll rest h.2
    refine ⟨v :: values, c :: contexts, ?_, ?_, fun ref => List.rel_append (hserve ref) (hrest ref),
      hfront.resolveFirst contexts⟩
    · rw [valuesOf, hv, hvalues]
      rfl
    · rw [List.mapM_cons, hc, hcontexts]
      rfl

end

end ContextTree

end ShellTemplate
