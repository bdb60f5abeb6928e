import ShellTemplate.Proofs.OverridingValues
import ShellTemplate.Proofs.VariableRules

/-!
# Quoting a value and expanding a placeholder for it

A value can be quoted by itself, or it can be expanded for a placeholder that stands alone. The two
sort values by rules of their own. Both take the scalars of a value: its items, if it is a list, a
tuple or a range, and otherwise the value itself.

* `isSome_listItems?` — which values count as lists.
* `mapM_ofValue_eq_badAtom_iff` — the leftmost scalar that is no atom is the one that is refused.
* `quoteValue_eq`, `expandAlone_eq` — both lines are made of the atoms of a value, and an expansion
  tells the place of an error besides.
* `quoteValue_agrees_with_expansion` — so they give the same lines, and they refuse the same scalar.
* `quoteValue_bytearray` — a byte array is a list for the one and no scalar for the other.
-/

set_option autoImplicit false

namespace ShellTemplate

open Number Shell

variable {v x : Value} {style : Style}

/-! ## Scalars of a value -/

/-- Whether a value is a list, a tuple or a range. -/
def Value.isSequence : Value → Bool
  | .list _ | .bottomless | .tuple _ | .range _ _ _ => true
  | _ => false

theorem isSome_listItems? (v : Value) : v.listItems?.isSome = v.isSequence := by
  cases v <;> rfl

/-- The scalars that a value gives: its items, or the value itself. -/
def Value.scalars (v : Value) : List Value := v.listItems?.getD [v]

/-- The value that the refusal of a value tells: the value itself, but the text of a number. -/
def Value.reported : Value → Value
  | .float x => .str (String.ofList x.toChars)
  | .decimal d => .str (String.ofList d.toChars)
  | v => v

theorem atoms_eq_mapM_scalars (v : Value) : v.atoms = v.scalars.mapM Atom.ofValue := by
  unfold Value.atoms Value.scalars
  cases v.listItems? with
  | some items => rfl
  | none =>
    show (Atom.ofValue v).map _ = [v].mapM Atom.ofValue
    rw [List.mapM_cons]
    cases Atom.ofValue v <;> rfl

/-! ## Refused scalars -/

/-- A refusal tells the value that was refused; a number that is not finite is told by its text. -/
theorem ofValue_eq_badAtom {index : Option Nat} {ref : Option Value}
    (h : Atom.ofValue v = .error (.badAtom x index ref)) :
    x = v.reported ∧ index = none ∧ ref = none := by
  have hbad : ∀ w, badAtom w = .badAtom x index ref → x = w ∧ index = none ∧ ref = none := by
    intro w hw
    cases (Error.eq_of_raised_eq hw (List.cons_ne_nil _ _)).1
    exact ⟨rfl, rfl, rfl⟩
  have hother : (.error (badAtom v) : Except Error Atom) = .error (.badAtom x index ref) →
      x = v ∧ index = none ∧ ref = none :=
    fun hv => hbad v (Except.error.inj hv)
  have hnumber : ∀ s, Atom.numberOf (.str s) = .error (.badAtom x index ref) →
      x = .str s ∧ index = none ∧ ref = none :=
    fun s hs => hbad _ (eq_badAtom_of_numberOf hs).symm
  cases v with
  | atom | str => cases h
  | int n =>
    -- a whole number is refused for its digits only
    by_cases hshort : (digits n.natAbs).length ≤ maxDigits
    · obtain ⟨a, ha⟩ := exists_ofValue_int hshort
      rw [ha] at h
      cases h
    · rw [Atom.ofValue, Atom.ofNumber, if_pos (Nat.not_le.1 hshort)] at h
      cases h
  | float x => exact hnumber _ h
  | decimal d => exact hnumber _ h
  | _ => exact hother h

/-- Only the refusal of a scalar is located as one, and it then tells the place. -/
theorem mapError_locate_eq_badAtom_iff {α : Type} {r : Except Error α} {n : Nat} {place : Value}
    (hplace : place.IsWritable)
    (hr : ∀ w index ref, r = .error (.badAtom w index ref) → w.IsWritable) {index : Option Nat}
    {ref : Option Value} :
    r.mapError (Error.locate n place) = .error (.badAtom x index ref) ↔
      index = some n ∧ ref = some place ∧ ∃ index' ref', r = .error (.badAtom x index' ref') := by
  rw [except_mapError_eq_error]
  constructor
  · rintro ⟨e, he, h⟩
    cases e with
    | badAtom w index' ref' =>
      cases (Error.eq_of_raised_eq h (List.cons_ne_nil _ _)).1
      exact ⟨rfl, rfl, _, _, he⟩
    | _ => cases h
  · rintro ⟨rfl, rfl, index', ref', he⟩
    exact ⟨_, he, Error.raised_badAtom_ref (hr _ _ _ he) hplace _⟩

/-- **The leftmost scalar that fails is the one that is refused.** -/
theorem mapM_ofValue_eq_badAtom_iff {items : List Value} {index : Option Nat} {ref : Option Value} :
    items.mapM Atom.ofValue = .error (.badAtom x index ref) ↔ index = none ∧ ref = none ∧
      ∃ before bad after, items = before ++ bad :: after ∧
        (∀ b ∈ before, ∃ a, Atom.ofValue b = .ok a) ∧
          Atom.ofValue bad = .error (.badAtom x none none) ∧ x = bad.reported := by
  rw [mapM_eq_error_iff]
  constructor
  · rintro ⟨before, bad, after, hitems, hbefore, hbad⟩
    obtain ⟨hx, rfl, rfl⟩ := ofValue_eq_badAtom hbad
    exact ⟨rfl, rfl, before, bad, after, hitems, hbefore, hbad, hx⟩
  · rintro ⟨rfl, rfl, before, bad, after, hitems, hbefore, hbad, -⟩
    exact ⟨before, bad, after, hitems, hbefore, hbad⟩

/-! ## The two lines -/

/-- The line of some atoms. -/
def lineOfAtoms (style : Style) (atoms : List Atom) : String :=
  spaced (atoms.map fun a => quoteText style a.content)

/-- A value that is quoted gives the line of its atoms. -/
theorem quoteValue_eq (style : Style) (hv : ∀ bs, v ≠ .bytearray bs) :
    quoteValue style v = v.atoms.map (lineOfAtoms style) := by
  unfold quoteValue Value.atoms
  split
  · next bs => exact absurd rfl (hv bs)
  · cases v.listItems? with
    | some items =>
      dsimp only
      rw [except_mapM_map]
      cases items.mapM Atom.ofValue <;> rfl
    | none =>
      show (Atom.ofValue v).map _ = ((Atom.ofValue v).map _).map _
      cases Atom.ofValue v with
      | error e => rfl
      | ok a => exact congrArg Except.ok (spaced_singleton _).symm

/-- The quoted placeholder that takes a value: one for a list, if it is a list, a tuple or a
range. -/
def placeTaking (name : String) (v : Value) : Placeholder := ⟨false, v.isSequence, .name name⟩

/-- The expansion of the placeholder for a value, from a dictionary with the value only. -/
def expandAlone (style : Style) (name : String) (v : Value) : Except Error String :=
  expandValue style.name (.list [.part (.placeholder (placeTaking name v))])
    (.dict [(.str name, v)])

/-- An expanded value gives the line of its atoms, and an error is located. -/
theorem expandAlone_eq (style : Style) (name : String) (v : Value) :
    expandAlone style name v =
      (v.atoms.map (lineOfAtoms style)).mapError (Error.locate 0 (.str name)) := by
  have hresolver : (Context.mapping (.dict [(.str name, v)])).resolver (.name name) = .ok v := by
    have hentries := resolver_entries [(name, v)] (.name name)
    rwa [foundIn, lookup_cons_eq, if_pos rfl] at hentries
  have htakes : (placeTaking name v).Takes v := isSome_listItems? v
  have htexts : partTexts (Context.mapping (.dict [(.str name, v)])).resolver 0
      (.placeholder (placeTaking name v)) =
      (v.atoms.map (List.map Atom.content)).mapError (Error.locate 0 (.str name)) :=
    placeTexts_of_takes hresolver htakes 0
  rw [expandAlone, expandValue_list (styleOf_name style) rfl, expandItems_singleton, tokenOfValue,
    token, htexts]
  cases v.atoms with
  | error e => rfl
  | ok atoms =>
    show Except.ok (spaced ((atoms.map Atom.content).map (quoteText style))) = _
    rw [List.map_map]
    rfl

/-! ## Agreement -/

/-- **Quoting a value and expanding it are one.** Any value but a byte array gives the same line
when it is quoted and when it is expanded by itself, or none. It is refused by both for the same
scalar, which is the leftmost one that is no atom; the expansion tells the index of the part and its
name besides. -/
theorem quoteValue_agrees_with_expansion (style : Style) (name : String)
    (hv : ∀ bs, v ≠ .bytearray bs) :
    (∀ line, quoteValue style v = .ok line ↔ expandAlone style name v = .ok line) ∧
    (∀ x, (∃ index ref, quoteValue style v = .error (.badAtom x index ref)) ↔
      ∃ index ref, expandAlone style name v = .error (.badAtom x index ref)) ∧
    (∀ x index ref, expandAlone style name v = .error (.badAtom x index ref) →
      index = some 0 ∧ ref = some (.str name)) ∧
    (∀ x, (∃ index ref, quoteValue style v = .error (.badAtom x index ref)) ↔
      ∃ before bad after, v.scalars = before ++ bad :: after ∧
        (∀ b ∈ before, ∃ a, Atom.ofValue b = .ok a) ∧
          Atom.ofValue bad = .error (.badAtom x none none) ∧ x = bad.reported) := by
  have hquote := quoteValue_eq style hv
  have hexpand : expandAlone style name v =
      (quoteValue style v).mapError (Error.locate 0 (.str name)) := by
    rw [hquote]
    exact expandAlone_eq style name v
  have hlocated : ∀ {x index ref}, expandAlone style name v = .error (.badAtom x index ref) ↔
      index = some 0 ∧ ref = some (.str name) ∧
        ∃ index' ref', quoteValue style v = .error (.badAtom x index' ref') := by
    intro x index ref
    have hwritable : ∀ w index ref, quoteValue style v = .error (.badAtom w index ref) →
        w.IsWritable := by
      intro w index ref h
      rw [hquote] at h
      exact isWritable_of_atoms (except_map_eq_error.1 h)
    rw [hexpand]
    exact mapError_locate_eq_badAtom_iff (isWritable_name name) hwritable
  refine ⟨?_, ?_, ?_, ?_⟩
  · intro line
    rw [hexpand, except_mapError_eq_ok]
  · intro x
    simp only [hlocated]
    constructor
    · intro h
      exact ⟨some 0, some (.str name), rfl, rfl, h⟩
    · rintro ⟨-, -, -, -, h⟩
      exact h
  · intro x index ref h
    obtain ⟨hindex, href, -⟩ := hlocated.1 h
    exact ⟨hindex, href⟩
  · intro x
    simp only [hquote, except_map_eq_error, atoms_eq_mapM_scalars, mapM_ofValue_eq_badAtom_iff]
    constructor
    · rintro ⟨-, -, -, -, h⟩
      exact h
    · intro h
      exact ⟨none, none, rfl, rfl, h⟩

/-- A tuple with two items that are no atoms. -/
def unevenItems : Value := .tuple [.str "it's", .int 7, .list [.null], .null]

theorem unevenItems_refused_alike :
    (∀ bs, unevenItems ≠ .bytearray bs) ∧
      expandAlone .minimal "v" unevenItems =
        .error (.badAtom (.list [.null]) (some 0) (some (.str "v"))) ∧
      ∃ index ref,
        quoteValue .minimal unevenItems = .error (.badAtom (.list [.null]) index ref) := by
  have hv : ∀ bs, unevenItems ≠ .bytearray bs := nofun
  have hexpand : expandAlone .minimal "v" unevenItems =
      .error (.badAtom (.list [.null]) (some 0) (some (.str "v"))) := rfl
  obtain ⟨-, hrefused, -, -⟩ := quoteValue_agrees_with_expansion .minimal "v" hv
  exact ⟨hv, hexpand, (hrefused _).2 ⟨_, _, hexpand⟩⟩

/-- **A byte array is the one exception.** It is quoted byte by byte, but it is refused as a scalar
where it is expanded. -/
theorem quoteValue_bytearray (style : Style) (name : String) (bs : List UInt8) :
    (∃ line, quoteValue style (.bytearray bs) = .ok line) ∧
      expandAlone style name (.bytearray bs) =
        .error (.badAtom (.bytearray bs) (some 0) (some (.str name))) := by
  constructor
  · have hbyte : ∀ item ∈ byteItems bs, ∃ word,
        ((Atom.ofValue item).map fun a => quoteText style a.content) = .ok word := by
      intro item hitem
      obtain ⟨b, -, rfl⟩ := List.mem_map.1 hitem
      have hbound : (b.toNat : Int).natAbs ≤ 255 := by
        have hlt := b.toNat_lt
        omega
      have hshort : (digits (b.toNat : Int).natAbs).length ≤ maxDigits :=
        (length_digits_mono hbound).trans (by decide)
      obtain ⟨a, ha⟩ := exists_ofValue_int hshort
      exact ⟨_, except_map_eq_ok.2 ⟨a, ha, rfl⟩⟩
    obtain ⟨words, hwords⟩ := exists_forall₂_iff.2 hbyte
    exact ⟨spaced words, except_map_eq_ok.2 ⟨words, mapM_eq_ok_iff.2 hwords, rfl⟩⟩
  · rw [expandAlone_eq]
    rfl

end ShellTemplate
