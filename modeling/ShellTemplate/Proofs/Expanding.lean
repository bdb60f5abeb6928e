import Mathlib.Data.List.Forall2
import ShellTemplate.Expansion

/-!
# What an expansion inserts

`Denotes` says which unquoted texts a part stands for in a context, kind by kind and without the
expander: a literal stands for its atom, a placeholder for a scalar stands for the atom of its
value, and a placeholder for a list stands for the atoms of the items.

Principal result: `expand_eq_ok_iff` — an expansion succeeds exactly if every part stands for some
texts, and then the line is made of these texts and nothing else. Whether it succeeds does not hang
on the style.
-/

set_option autoImplicit false

namespace ShellTemplate

open Shell

/-- The unquoted text of a scalar value. -/
def Value.HasText (v : Value) (t : String) : Prop := ∃ a, Atom.ofValue v = .ok a ∧ a.content = t

/-- The unquoted texts that a part stands for. -/
inductive Denotes (resolve : Resolver) : Part → List String → Prop where
  | literal (a : Atom) : Denotes resolve (.literal a) [a.content]
  | scalar {verbatim : Bool} {ref : Ref} {v : Value} {t : String} (bound : resolve ref = .ok v)
    (single : v.listItems? = none) (text : v.HasText t) :
    Denotes resolve (.placeholder ⟨verbatim, false, ref⟩) [t]
  | list {verbatim : Bool} {ref : Ref} {v : Value} {items : List Value} {texts : List String}
    (bound : resolve ref = .ok v) (many : v.listItems? = some items)
    (each : List.Forall₂ Value.HasText items texts) :
    Denotes resolve (.placeholder ⟨verbatim, true, ref⟩) texts

/-! ## Results and errors -/

theorem except_map_eq_ok {ε α β : Type} {f : α → β} {r : Except ε α} {b : β} :
    r.map f = .ok b ↔ ∃ a, r = .ok a ∧ f a = b := by
  cases r <;> simp [Except.map]

theorem except_toOption_eq_some {ε α : Type} {r : Except ε α} {a : α} :
    r.toOption = some a ↔ r = .ok a := by
  cases r <;> simp [Except.toOption]

theorem except_map_eq_error {ε α β : Type} {f : α → β} {r : Except ε α} {e : ε} :
    r.map f = .error e ↔ r = .error e := by
  cases r <;> simp [Except.map]

theorem except_mapError_eq_ok {ε ε' α : Type} {f : ε → ε'} {r : Except ε α} {a : α} :
    r.mapError f = .ok a ↔ r = .ok a := by
  cases r <;> simp [Except.mapError]

theorem except_bind_eq_ok {ε α β : Type} {r : Except ε α} {f : α → Except ε β} {b : β} :
    (r >>= f) = .ok b ↔ ∃ a, r = .ok a ∧ f a = .ok b := by
  cases r <;> simp [bind, Except.bind]

theorem except_mapError_eq_error {ε ε' α : Type} {f : ε → ε'} {r : Except ε α} {e : ε'} :
    r.mapError f = .error e ↔ ∃ e', r = .error e' ∧ f e' = e := by
  cases r <;> simp [Except.mapError]

theorem except_bind_eq_error {ε α β : Type} {r : Except ε α} {f : α → Except ε β} {e : ε} :
    (r >>= f) = .error e ↔ r = .error e ∨ ∃ a, r = .ok a ∧ f a = .error e := by
  cases r <;> simp [bind, Except.bind]

theorem except_mapError_bind {ε ε' α β : Type} {g : ε → ε'} {r : Except ε α} {f : α → Except ε β} :
    (r >>= f).mapError g = r.mapError g >>= fun a => (f a).mapError g := by
  cases r <;> rfl

theorem except_mapError_mapM {ε ε' α β : Type} {g : ε → ε'} {f : α → Except ε β} {xs : List α} :
    (xs.mapM f).mapError g = xs.mapM fun x => (f x).mapError g := by
  induction xs with
  | nil => rfl
  | cons x xs ih =>
    simp only [List.mapM_cons, except_mapError_bind, ih]
    rfl

theorem mapM_eq_ok_iff {ε α β : Type} {f : α → Except ε β} {xs : List α} {ys : List β} :
    xs.mapM f = .ok ys ↔ List.Forall₂ (fun x y => f x = .ok y) xs ys := by
  induction xs generalizing ys with
  | nil =>
    rw [List.mapM_nil, List.forall₂_nil_left_iff]
    exact ⟨fun h => by cases h; rfl, fun h => h ▸ rfl⟩
  | cons x xs ih =>
    rw [List.mapM_cons, except_bind_eq_ok, List.forall₂_cons_left_iff]
    constructor
    · rintro ⟨y, hy, h⟩
      obtain ⟨ys', hys, h⟩ := except_bind_eq_ok.1 h
      cases h
      exact ⟨y, ys', hy, ih.1 hys, rfl⟩
    · rintro ⟨y, ys', hy, hys, rfl⟩
      exact ⟨y, hy, except_bind_eq_ok.2 ⟨ys', ih.2 hys, rfl⟩⟩

/-- Going through a list stops at its leftmost failure. -/
theorem mapM_eq_error_iff {ε α β : Type} {f : α → Except ε β} {xs : List α} {e : ε} :
    xs.mapM f = .error e ↔ ∃ before x after, xs = before ++ x :: after ∧
      (∀ b ∈ before, ∃ y, f b = .ok y) ∧ f x = .error e := by
  induction xs with
  | nil =>
    constructor
    · rintro ⟨⟩
    · rintro ⟨before, x, after, h, -, -⟩
      simp at h
  | cons x xs ih =>
    rw [List.mapM_cons, except_bind_eq_error]
    constructor
    · rintro (hx | ⟨y, hy, h⟩)
      · exact ⟨[], x, xs, rfl, nofun, hx⟩
      · rcases except_bind_eq_error.1 h with hxs | ⟨ys, -, h⟩
        · obtain ⟨before, z, after, rfl, hbefore, hz⟩ := ih.1 hxs
          exact ⟨x :: before, z, after, rfl, List.forall_mem_cons.2 ⟨⟨y, hy⟩, hbefore⟩, hz⟩
        · cases h
    · rintro ⟨before, z, after, hlist, hbefore, hz⟩
      cases before with
      | nil =>
        cases hlist
        exact .inl hz
      | cons b before =>
        cases hlist
        rw [List.forall_mem_cons] at hbefore
        obtain ⟨⟨y, hy⟩, hbefore⟩ := hbefore
        have hrest := ih.2 ⟨before, z, after, rfl, hbefore, hz⟩
        exact .inr ⟨y, hy, except_bind_eq_error.2 (.inl hrest)⟩

theorem mapM_eq_some_iff {α β : Type} {f : α → Option β} {xs : List α} {ys : List β} :
    xs.mapM f = some ys ↔ List.Forall₂ (fun x y => f x = some y) xs ys := by
  induction xs generalizing ys with
  | nil =>
    rw [List.mapM_nil, List.forall₂_nil_left_iff]
    exact ⟨fun h => by cases h; rfl, fun h => h ▸ rfl⟩
  | cons x xs ih =>
    rw [List.mapM_cons, List.forall₂_cons_left_iff]
    simp only [Option.bind_eq_bind, Option.bind_eq_some_iff, ih]
    constructor
    · rintro ⟨y, hy, ys', hys, h⟩
      cases h
      exact ⟨y, ys', hy, hys, rfl⟩
    · rintro ⟨y, ys', hy, hys, rfl⟩
      exact ⟨y, hy, ys', hys, rfl⟩

theorem exists_forall₂_iff {α β : Type} {R : α → β → Prop} {xs : List α} :
    (∃ ys, List.Forall₂ R xs ys) ↔ ∀ x ∈ xs, ∃ y, R x y := by
  induction xs with
  | nil => simp
  | cons x xs ih =>
    rw [List.forall_mem_cons, ← ih]
    constructor
    · rintro ⟨_, h⟩
      cases h with
      | cons hfirst hrest => exact ⟨⟨_, hfirst⟩, ⟨_, hrest⟩⟩
    · rintro ⟨⟨y, hfirst⟩, ⟨ys, hrest⟩⟩
      exact ⟨y :: ys, .cons hfirst hrest⟩

/-! ## Texts of parts -/

variable {resolve : Resolver} {style : Style}

theorem scalarText_eq_ok {index : Nat} {ref : Ref} {v : Value} {t : String} :
    scalarText index ref v = .ok t ↔ v.HasText t := by
  rw [scalarText, except_mapError_eq_ok, except_map_eq_ok, Value.HasText]

/-- What a placeholder makes of the value of its reference. -/
theorem placeTexts_of_ok {place : Placeholder} {v : Value} (h : resolve place.ref = .ok v)
    (index : Nat) :
    placeTexts resolve index place =
      match place.list, v.listItems? with
      | true, some items => items.mapM (scalarText index place.ref)
      | true, none => .error (mismatch index place.ref "list" v)
      | false, some _ => .error (mismatch index place.ref "scalar" v)
      | false, none => (scalarText index place.ref v).map fun text => [text] := by
  have hlookUp : lookUp resolve index place.ref = .ok v := except_mapError_eq_ok.2 h
  rw [placeTexts, hlookUp]
  rfl

theorem placeTexts_of_error {place : Placeholder} {e : Error} (h : resolve place.ref = .error e)
    (index : Nat) :
    placeTexts resolve index place = .error (e.place index) := by
  rw [placeTexts, lookUp, h]
  rfl

/-- The place of a part has no say in what the part stands for. -/
theorem partTexts_eq_ok {index : Nat} {part : Part} {texts : List String} :
    partTexts resolve index part = .ok texts ↔ Denotes resolve part texts := by
  cases part with
  | literal a =>
    constructor
    · intro h; cases h; exact .literal a
    · intro h; cases h; rfl
  | placeholder place =>
    obtain ⟨verbatim, list, ref⟩ := place
    simp only [partTexts, placeTexts, except_bind_eq_ok, lookUp, except_mapError_eq_ok]
    constructor
    · rintro ⟨v, bound, h⟩
      split at h
      · rename_i items many
        refine .list bound many ?_
        simpa only [mapM_eq_ok_iff, scalarText_eq_ok] using h
      · cases h
      · cases h
      · rename_i single
        obtain ⟨t, text, rfl⟩ := except_map_eq_ok.1 h
        exact .scalar bound single (scalarText_eq_ok.1 text)
    · intro h
      cases h with
      | scalar bound single text =>
        refine ⟨_, bound, ?_⟩
        simp only [single]
        exact except_map_eq_ok.2 ⟨_, scalarText_eq_ok.2 text, rfl⟩
      | list bound many each =>
        refine ⟨_, bound, ?_⟩
        simp only [many]
        simpa only [mapM_eq_ok_iff, scalarText_eq_ok] using each

/-- A part stands for at most one list of texts. -/
theorem Denotes.unique {part : Part} {ts us : List String} (ht : Denotes resolve part ts)
    (hu : Denotes resolve part us) : ts = us := by
  have ht0 : partTexts resolve 0 part = .ok ts := partTexts_eq_ok.2 ht
  have hu0 : partTexts resolve 0 part = .ok us := partTexts_eq_ok.2 hu
  exact Except.ok.inj (ht0.symm.trans hu0)

/-! ## Tokens and lines -/

/-- The token of a part that stands for some texts. -/
def tokenOf (style : Style) (part : Part) (texts : List String) : String :=
  spaced (inserted style part.isVerbatim texts)

theorem token_eq_ok {index : Nat} {part : Part} {t : String} :
    token style resolve index part = .ok t ↔
      ∃ texts, Denotes resolve part texts ∧ tokenOf style part texts = t := by
  simp only [token, except_map_eq_ok, partTexts_eq_ok, tokenOf]

theorem tokensFrom_eq_ok {index : Nat} {parts : List Part} {tokens : List String} :
    tokensFrom style resolve index (parts.map .part) = .ok tokens ↔
      ∃ textss, List.Forall₂ (Denotes resolve) parts textss ∧
        List.zipWith (tokenOf style) parts textss = tokens := by
  induction parts generalizing index tokens with
  | nil => simp [tokensFrom, eq_comm]
  | cons part parts ih =>
    simp only [List.map_cons, tokensFrom, tokenOfValue, except_bind_eq_ok, token_eq_ok, ih]
    constructor
    · rintro ⟨_, ⟨texts, ht, rfl⟩, _, ⟨textss, hts, rfl⟩, h⟩
      cases h
      exact ⟨texts :: textss, .cons ht hts, rfl⟩
    · rintro ⟨_, hts, rfl⟩
      cases hts with
      | cons ht hts => exact ⟨_, ⟨_, ht, rfl⟩, _, ⟨_, hts, rfl⟩, rfl⟩

/-- **A line is made of what its parts stand for**, and there is one whenever every part stands for
something. -/
theorem expand_eq_ok_iff {context : Context} {parts : List Part} {line : String} :
    expand style context parts = .ok line ↔
      ∃ textss, List.Forall₂ (Denotes context.resolver) parts textss ∧
        spaced (List.zipWith (tokenOf style) parts textss) = line := by
  simp only [expand, expandItems, except_map_eq_ok, tokensFrom_eq_ok]
  constructor
  · rintro ⟨_, ⟨textss, hts, rfl⟩, h⟩
    exact ⟨textss, hts, h⟩
  · rintro ⟨textss, hts, h⟩
    exact ⟨_, ⟨textss, hts, rfl⟩, h⟩

theorem styleOf_name (style : Style) : styleOf style.name = .ok style := by
  cases style <;> rfl

theorem toList_spaced (texts : List String) :
    (spaced texts).toList = List.intercalate [' '] (texts.map String.toList) := by
  rw [spaced, String.toList_intercalate]
  rfl

end ShellTemplate
