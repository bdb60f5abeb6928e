import ShellTemplate.Proofs.ErrorPlaces
import ShellTemplate.Proofs.YamlReading
import ShellTemplate.Yaml.Document

/-!
# Scalars of a YAML document without a value

A scalar can have the form of some type and no value of it: a date that is in no calendar, digits
that are none in their base. `Refuses` lists these types, and `Node.given` lists the scalars that
get a value when a document is read.

* `Refuses` — a text is no value of its type.
* `Node.given` — the scalars of a node that get a value.
* `judged_value` — a node that is refused for a scalar holds that scalar, and a node with a value
  holds none that is refused.

Principal result: `concludes_readDocument`.
-/

set_option autoImplicit false

namespace ShellTemplate

/-- Whether an error is the refusal of a scalar. -/
def Error.isScalar : Error → Bool
  | scalar _ | tooManyDigits _ => true
  | _ => false

namespace Yaml

/-! ## Refused texts -/

/-- A scalar: its type, its text, and whether a mapping stands for it. -/
structure Spelled where
  tag : Tag
  text : List Char
  mapped : Bool

/-- A scalar of some type has no value of it. -/
inductive Refuses : Spelled → Error → Prop
  | truth {cs : List Char} {mapped : Bool} {e : Error} : truthValue cs = .error e →
      Refuses ⟨.truth, cs, mapped⟩ e
  | whole {cs : List Char} {mapped : Bool} {e : Error} : wholeValue cs = .error e →
      Refuses ⟨.whole, cs, mapped⟩ e
  | float {cs : List Char} {mapped : Bool} {e : Error} : floatValue cs = .error e →
      Refuses ⟨.float, cs, mapped⟩ e
  | timestamp {cs : List Char} {mapped : Bool} {e : Error} : timestampValue mapped cs = .error e →
      Refuses ⟨.timestamp, cs, mapped⟩ e

/-- All errors of a result refuse a scalar. -/
abbrev RefusesScalars {α : Type} (r : Except Error α) : Prop :=
  Raises (fun e => e.isScalar = true) r

theorem refusesScalars_mapM {α β : Type} {f : α → Except Error β} (h : ∀ a, RefusesScalars (f a))
    (xs : List α) : RefusesScalars (xs.mapM f) := by
  induction xs with
  | nil => exact raises_ok _
  | cons x rest ih =>
    rw [List.mapM_cons]
    exact (h x).bind fun _ => ih.bind fun _ => raises_ok _

theorem refusesScalars_truthValue (cs : List Char) : RefusesScalars (truthValue cs) := by
  simp only [truthValue]
  split
  · exact raises_ok _
  · split
    · exact raises_ok _
    · exact raises_error rfl

theorem refusesScalars_timestampValue (mapped : Bool) (cs : List Char) :
    RefusesScalars (timestampValue mapped cs) := by
  unfold timestampValue
  split
  · exact raises_error rfl
  split
  · exact raises_error rfl
  · split
    · exact raises_error rfl
    · exact raises_ok _

theorem refusesScalars_wholeIn (base : Nat) (cs : List Char) : RefusesScalars (wholeIn base cs) := by
  simp only [wholeIn]
  split
  · exact raises_error rfl
  · exact raises_error rfl
  · split
    · exact raises_error rfl
    · exact raises_ok _

theorem refusesScalars_wholeValue (cs : List Char) : RefusesScalars (wholeValue cs) := by
  unfold wholeValue
  dsimp only
  split
  · exact raises_error rfl
  · -- the base is told by the first characters
    split
    · exact raises_error rfl
    · exact raises_ok _
    · exact (refusesScalars_wholeIn 2 _).bind fun _ => raises_ok _
    · exact (refusesScalars_wholeIn 16 _).bind fun _ => raises_ok _
    · exact (refusesScalars_wholeIn 8 _).bind fun _ => raises_ok _
    · split
      · exact (refusesScalars_mapM (refusesScalars_wholeIn 10) _).bind fun _ => raises_ok _
      · exact (refusesScalars_wholeIn 10 _).bind fun _ => raises_ok _

theorem refusesScalars_floatIn (cs : List Char) : RefusesScalars (floatIn cs) := by
  unfold floatIn
  split
  · exact raises_ok _
  · exact raises_error rfl

theorem refusesScalars_placesSum (unit : Nat) (sum : Number.Binary64)
    (places : List Number.Binary64) : RefusesScalars (placesSum unit sum places) := by
  induction places generalizing unit sum with
  | nil => exact raises_ok _
  | cons place rest ih =>
    unfold placesSum
    split
    · exact ih _ _
    · exact raises_error rfl

theorem refusesScalars_floatValue (cs : List Char) : RefusesScalars (floatValue cs) := by
  unfold floatValue
  dsimp only
  split
  · exact raises_error rfl
  split
  · exact raises_ok _
  split
  · exact raises_ok _
  split
  · exact (refusesScalars_mapM refusesScalars_floatIn _).bind fun _ =>
      (refusesScalars_placesSum _ _ _).bind fun _ => raises_ok _
  · exact (refusesScalars_floatIn _).bind fun _ => raises_ok _

theorem Refuses.isScalar {s : Spelled} {e : Error} (h : Refuses s e) : e.isScalar = true := by
  cases h with
  | truth h => exact refusesScalars_truthValue _ e h
  | whole h => exact refusesScalars_wholeValue _ e h
  | float h => exact refusesScalars_floatValue _ e h
  | timestamp h => exact refusesScalars_timestampValue _ _ e h

/-! ## The scalars of a node -/

mutual

/-- The scalars of a node that get a value. -/
def Node.given : Node → List Spelled
  | .scalar tag text => [⟨tag, text, false⟩]
  | .sequence tag items =>
    match tag with
    | .sequence => givenItems items
    | .pairs => givenPairs items
    | _ => []
  | .mapping tag entries =>
    match tag with
    | .mapping | .set => givenEntries entries
    | .sequence | .pairs => []
    | tag => (defaultText? entries).toList.map fun text => ⟨tag, text, true⟩
  | .badMerge | .halved | .cycle => []
termination_by structural node => node

/-- Those of the items of a sequence. -/
def givenItems : List Node → List Spelled
  | [] => []
  | item :: rest => item.given ++ givenItems rest
termination_by structural items => items

/-- Those of items that are mappings of one entry each. -/
def givenPairs : List Node → List Spelled
  | [] => []
  | .mapping _ [(key, value)] :: rest => key.given ++ value.given ++ givenPairs rest
  | _ :: _ => []
termination_by structural items => items

/-- Those of the entries of a mapping. -/
def givenEntries : List (Node × Node) → List Spelled
  | [] => []
  | (key, value) :: rest => key.given ++ value.given ++ givenEntries rest
termination_by structural entries => entries

end

/-- None of some scalars is refused. -/
def Accepted (scalars : List Spelled) : Prop := ∀ s ∈ scalars, ∀ e, ¬Refuses s e

/-- One of some scalars is refused with an error. -/
def RefusedAmong (scalars : List Spelled) (e : Error) : Prop := ∃ s ∈ scalars, Refuses s e

/-- A result that hangs on some scalars: it fails for one of them, or for no scalar at all, and it
has a value only if none of them is refused. -/
def Judged {α : Type} (scalars : List Spelled) : Levelled α → Prop :=
  Concludes (fun failure => ∀ e, failure.2 = .scalar e → RefusedAmong scalars e) fun _ =>
    Accepted scalars

section Judged

variable {α β : Type} {xs ys : List Spelled} {r : Levelled α} {r' : Levelled β}

theorem judged_misplaced (xs : List Spelled) (level : Nat) :
    Judged xs (misplaced level : Levelled α) := nofun

theorem judged_nil (a : α) : Judged [] (.ok a : Levelled α) := List.forall_mem_nil _

theorem Judged.map (h : Judged xs r) (f : α → β) : Judged xs (r.map f) :=
  Concludes.map h fun _ h => h

theorem RefusedAmong.left {e : Error} (h : RefusedAmong xs e) : RefusedAmong (xs ++ ys) e :=
  let ⟨s, hs, hrefused⟩ := h
  ⟨s, List.mem_append_left ys hs, hrefused⟩

theorem RefusedAmong.right {e : Error} (h : RefusedAmong ys e) : RefusedAmong (xs ++ ys) e :=
  let ⟨s, hs, hrefused⟩ := h
  ⟨s, List.mem_append_right xs hs, hrefused⟩

theorem Judged.both (h : Judged xs r) (h' : Judged ys r') : Judged (xs ++ ys) (both r r') := by
  match r, r' with
  | .ok a, .ok b => exact List.forall_mem_append.2 ⟨h, h'⟩
  | .ok _, .error _ => exact fun e he => (h' e he).right
  | .error _, .ok _ => exact fun e he => (h e he).left
  | .error (level, _), .error (level', _) =>
    by_cases hlevel : level ≤ level'
    · rw [Yaml.both, if_pos hlevel]
      exact fun e he => (h e he).left
    · rw [Yaml.both, if_neg hlevel]
      exact fun e he => (h' e he).right

end Judged

/-- A scalar whose value hangs on a reading that tells what is refused. -/
theorem judged_onLevel {α : Type} (level : Nat) {s : Spelled} {r : Except Error α}
    (h : ∀ e, Refuses s e ↔ r = .error e) : Judged [s] (onLevel level r) := by
  cases r with
  | error e =>
    rintro _ ⟨⟩
    exact ⟨s, List.mem_singleton_self _, (h e).2 rfl⟩
  | ok a =>
    intro s' hs e hrefused
    obtain rfl := List.mem_singleton.1 hs
    cases (h e).1 hrefused

theorem judged_scalarValue (level : Nat) (tag : Tag) (mapped : Bool) (cs : List Char) :
    Judged [⟨tag, cs, mapped⟩] (scalarValue level tag mapped cs) := by
  have free : ∀ (tag : Tag) (a : Value), (∀ e, ¬Refuses ⟨tag, cs, mapped⟩ e) →
      Judged [⟨tag, cs, mapped⟩] (.ok a : Levelled Value) :=
    fun tag a h s hs e => (List.mem_singleton.1 hs) ▸ h e
  cases tag with
  | truth => exact judged_onLevel level fun e => ⟨fun h => by cases h; assumption, .truth⟩
  | whole =>
    exact judged_onLevel level fun e =>
      ⟨fun h => by cases h with | whole h => exact except_map_eq_error.2 h,
        fun h => .whole (except_map_eq_error.1 h)⟩
  | float =>
    exact judged_onLevel level fun e =>
      ⟨fun h => by cases h with | float h => exact except_map_eq_error.2 h,
        fun h => .float (except_map_eq_error.1 h)⟩
  | timestamp => exact judged_onLevel level fun e => ⟨fun h => by cases h; assumption, .timestamp⟩
  | binary =>
    unfold scalarValue
    dsimp only
    split
    · exact free .binary _ nofun
    · exact judged_misplaced _ _
  | null => exact free .null _ nofun
  | text => exact free .text _ nofun
  | _ => exact judged_misplaced _ _

theorem judged_mappingScalar (level : Nat) (tag : Tag) (entries : List (Node × Node)) :
    Judged ((defaultText? entries).toList.map fun text => ⟨tag, text, true⟩)
      (mappingScalar level tag entries) := by
  unfold mappingScalar
  cases defaultText? entries with
  | some text => exact judged_scalarValue level tag true text
  | none => exact judged_misplaced _ _

theorem judged_keyValue (level : Nat) (key : Node) : Judged key.given (keyValue level key) := by
  cases key with
  | scalar tag cs =>
    cases tag with
    | value => exact fun s hs e h => by cases List.mem_singleton.1 hs; cases h
    | sequence | mapping | set | pairs => exact judged_misplaced _ _
    | _ => exact judged_scalarValue level _ false cs
  | mapping tag entries =>
    cases tag with
    | mapping | set | sequence | pairs => exact judged_misplaced _ _
    | _ => exact judged_mappingScalar level _ entries
  | halved => exact judged_nil _
  | _ => exact judged_misplaced _ _

mutual

/-- A node that is refused for a scalar holds it, and one with a value holds none that is
refused. -/
theorem judged_value (level : Nat) (node : Node) : Judged node.given (node.value level) := by
  cases node with
  | scalar tag cs => exact judged_scalarValue level tag false cs
  | sequence tag items =>
    cases tag with
    | sequence => exact (judged_itemValues (level + 1) items).map _
    | pairs => exact (judged_pairValues (level + 1) items).map _
    | _ => exact judged_misplaced _ _
  | mapping tag entries =>
    cases tag with
    | mapping => exact (judged_entryValues (level + 1) entries).map _
    | set => exact (judged_entryValues (level + 1) entries).map _
    | sequence | pairs => exact judged_misplaced _ _
    | _ => exact judged_mappingScalar level _ entries
  | badMerge => exact judged_misplaced _ _
  | halved => exact judged_nil _
  | cycle => exact judged_nil _
termination_by structural node

theorem judged_itemValues (level : Nat) (items : List Node) :
    Judged (givenItems items) (itemValues level items) := by
  cases items with
  | nil => exact judged_nil _
  | cons item rest => exact ((judged_value level item).both (judged_itemValues level rest)).map _
termination_by structural items

theorem judged_pairValues (level : Nat) (items : List Node) :
    Judged (givenPairs items) (pairValues level items) := by
  match items with
  | [] => exact judged_nil _
  | .mapping _ [(key, value)] :: rest =>
    exact (((judged_value level key).both (judged_value level value)).both
      (judged_pairValues level rest)).map _
  | .mapping _ [] :: _ | .mapping _ (_ :: _ :: _) :: _ => exact judged_misplaced _ _
  | .scalar .. :: _ | .sequence .. :: _ | .badMerge :: _ | .halved :: _ | .cycle :: _ =>
    exact judged_misplaced _ _
termination_by structural items

theorem judged_entryValues (level : Nat) (entries : List (Node × Node)) :
    Judged (givenEntries entries) (entryValues level entries) := by
  match entries with
  | [] => exact judged_nil _
  | (key, value) :: rest =>
    exact (((judged_keyValue level key).both (judged_value level value)).both
      (judged_entryValues level rest)).map _
termination_by structural entries

end

/-! ## Documents -/

/-- Something in a text has the form of a scalar and no value: an escape that is beyond the last
code point, or a text that is no value of its type. -/
inductive RefusedIn (text : List Char) : Error → Prop
  | escape {digits : List Char} : '\\' :: 'U' :: digits <:+ text →
      codePoint 8 digits = .error (.scalar (.scalar .codePoint)) →
      RefusedIn text (.scalar .codePoint)
  | value {node : Node} {e : Error} : readNode text = .ok (some node) →
      RefusedAmong node.given e → RefusedIn text e

theorem RefusedIn.isScalar {text : List Char} {e : Error} (h : RefusedIn text e) :
    e.isScalar = true := by
  cases h with
  | escape => rfl
  | value _ hamong =>
    obtain ⟨s, -, hrefused⟩ := hamong
    exact hrefused.isScalar

/-- **What a document is refused for**: it is no YAML, or something in it has the form of a scalar
and no value. With a value for the document, every scalar in it has one. -/
theorem concludes_readDocument (text : List Char) :
    Concludes (fun fault => ∀ e, fault = .scalar e → RefusedIn text e)
      (fun _ => ∀ node, readNode text = .ok (some node) → Accepted node.given)
      (readDocument text) := by
  have hread := readNode_faults text
  unfold readDocument
  cases hnode : readNode text with
  | error fault =>
    rintro e rfl
    cases hread.of_error hnode with
    | escape hin hcode => exact .escape hin hcode
  | ok found =>
    cases found with
    | none => exact nofun
    | some node =>
      have hjudged := judged_value 0 node
      change Concludes _ _ ((node.value 0).mapError Prod.snd)
      cases hvalue : node.value 0 with
      | error failure => exact fun e he => .value hnode (hjudged.of_error hvalue e he)
      | ok v =>
        rintro _ ⟨⟩
        exact hjudged.of_ok hvalue

end Yaml

end ShellTemplate
