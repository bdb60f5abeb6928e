import Mathlib.Data.List.Induction
import Mathlib.Data.List.Nodup
import ShellTemplate.Config.Basic
import ShellTemplate.Proofs.Lookups

/-!
# Named values

Variables and assignments are kept as lists of named values. A value that is put in replaces the one
of the same name; a dictionary whose keys are names does the same with its entries, so the two can
be taken for each other, and a reference finds in such a dictionary what its name finds in the list.

* `lookup_putNamed`, `lookup_override` — what a name finds after values were put in.
* `names_override_nil`, `lookup_override_nil` — the names keep the order in which they first occur, and
  each has its last value.
* `override_eq_append` — values of new names are added behind the others, in order.
* `Dict.ofNamed_eq`, `Dict.union_entries` — dictionaries of named values.
* `namedEntries?_entries` — the named values that are read from such a dictionary.
* `resolver_dict`, `resolver_entries`, `resolver_chain_entries` — what a reference finds in a
  dictionary, in one of named values, and in two of these.
-/

set_option autoImplicit false

namespace ShellTemplate

section Named

variable {α : Type} {name m : String} {a : α} {base named : List (String × α)}

theorem lookup_cons_eq (entry : String × α) (base : List (String × α)) (m : String) :
    (entry :: base).lookup m = if m = entry.1 then some entry.2 else base.lookup m := by
  rw [List.lookup_cons]
  by_cases hm : m = entry.1
  · rw [if_pos hm, beq_iff_eq.2 hm]
  · rw [if_neg hm, beq_eq_false_iff_ne.2 hm]

theorem lookup_eq_some_of_mem (hnames : (named.map Prod.fst).Nodup) (h : (name, a) ∈ named) :
    named.lookup name = some a := by
  induction named with
  | nil => cases h
  | cons entry named ih =>
    rw [List.map_cons, List.nodup_cons] at hnames
    rw [lookup_cons_eq]
    rcases List.mem_cons.1 h with rfl | h
    · exact if_pos rfl
    · have hne : name ≠ entry.1 := by
        rintro rfl
        exact hnames.1 (List.mem_map.2 ⟨_, h, rfl⟩)
      rw [if_neg hne, ih hnames.2 h]

theorem lookup_putNamed (name m : String) (a : α) (base : List (String × α)) :
    (putNamed name a base).lookup m = if m = name then some a else base.lookup m := by
  induction base with
  | nil => rw [putNamed, lookup_cons_eq]
  | cons entry base ih =>
    rw [putNamed, lookup_cons_eq]
    by_cases hn : entry.1 = name
    · rw [if_pos hn, lookup_cons_eq, hn]
      split <;> rfl
    · rw [if_neg hn, lookup_cons_eq, ih]
      by_cases hm : m = entry.1
      · rw [if_pos hm, if_neg (hm ▸ hn), if_pos hm]
      · rw [if_neg hm, if_neg hm]

/-- A value of a new name is added at the end. -/
theorem putNamed_of_notMem (h : name ∉ base.map Prod.fst) :
    putNamed name a base = base ++ [(name, a)] := by
  induction base with
  | nil => rfl
  | cons entry base ih =>
    simp only [List.map_cons, List.mem_cons, not_or] at h
    rw [putNamed, if_neg (Ne.symm h.1), ih h.2, List.cons_append]

/-- The names stay the same if one of them gets a value. -/
theorem names_putNamed_of_mem (h : name ∈ base.map Prod.fst) :
    (putNamed name a base).map Prod.fst = base.map Prod.fst := by
  induction base with
  | nil => cases h
  | cons entry base ih =>
    rw [putNamed]
    split
    · rename_i heq; simp [heq]
    · rename_i hne
      simp only [List.map_cons, List.mem_cons] at h ⊢
      rw [ih (h.resolve_left (Ne.symm hne))]

theorem nodup_putNamed (h : (base.map Prod.fst).Nodup) :
    ((putNamed name a base).map Prod.fst).Nodup := by
  by_cases hmem : name ∈ base.map Prod.fst
  · rwa [names_putNamed_of_mem hmem]
  · rw [putNamed_of_notMem hmem, List.map_append, List.map_singleton, ← List.concat_eq_append]
    exact List.Nodup.concat hmem h

/-- Values put in one after the other. -/
def override (base named : List (String × α)) : List (String × α) :=
  named.foldl (fun values entry => putNamed entry.1 entry.2 values) base

/-- Of the values that are put in the last one of a name counts; the names that get none keep what
they had. -/
theorem lookup_override (base named : List (String × α)) (m : String) :
    (override base named).lookup m = ((override [] named).lookup m).or (base.lookup m) := by
  induction named generalizing base with
  | nil => rfl
  | cons entry named ih =>
    have hempty := ih (putNamed entry.1 entry.2 [])
    have hbase := ih (putNamed entry.1 entry.2 base)
    rw [lookup_putNamed] at hempty hbase
    show (override (putNamed entry.1 entry.2 base) named).lookup m =
      ((override (putNamed entry.1 entry.2 []) named).lookup m).or (base.lookup m)
    rw [hempty, hbase, Option.or_assoc]
    congr 1
    split <;> rfl

/-- Values of new names are added in order. -/
theorem override_eq_append (h : ((base ++ named).map Prod.fst).Nodup) :
    override base named = base ++ named := by
  induction named generalizing base with
  | nil => rw [List.append_nil]; rfl
  | cons entry named ih =>
    have hnew : entry.1 ∉ base.map Prod.fst := by
      intro hmem
      rw [List.map_append, List.nodup_append] at h
      exact h.2.2 entry.1 hmem entry.1 (by simp) rfl
    have happend : base ++ entry :: named = (base ++ [entry]) ++ named := by simp
    rw [happend] at h ⊢
    rw [← ih h]
    show override (putNamed entry.1 entry.2 base) named = _
    rw [putNamed_of_notMem hnew]

theorem override_nil_eq_self (h : (named.map Prod.fst).Nodup) : override [] named = named :=
  override_eq_append h

theorem nodup_override (h : (base.map Prod.fst).Nodup) :
    ((override base named).map Prod.fst).Nodup := by
  induction named generalizing base with
  | nil => exact h
  | cons entry named ih => exact ih (nodup_putNamed h)

theorem override_concat (base named : List (String × α)) (entry : String × α) :
    override base (named ++ [entry]) = putNamed entry.1 entry.2 (override base named) := by
  rw [override, List.foldl_append]
  rfl

/-- The names keep the order in which they first occur. -/
theorem names_override_nil (named : List (String × α)) :
    (override [] named).map Prod.fst = (named.map Prod.fst).eraseDups := by
  induction named using List.reverseRecOn with
  | nil => rfl
  | append_singleton named entry ih =>
    have hmem : entry.1 ∈ (override [] named).map Prod.fst ↔ entry.1 ∈ named.map Prod.fst := by
      rw [ih, List.mem_eraseDups]
    rw [override_concat, List.map_append, List.eraseDups_append, ← ih, List.map_singleton]
    by_cases hnew : entry.1 ∈ named.map Prod.fst
    · rw [names_putNamed_of_mem (hmem.2 hnew)]
      simp [List.removeAll, hnew]
    · rw [putNamed_of_notMem fun h => hnew (hmem.1 h)]
      simp [List.removeAll, List.eraseDups_cons, hnew]

/-- Of several values of a name the last one is kept. -/
theorem lookup_override_nil (named : List (String × α)) (m : String) :
    (override [] named).lookup m = named.reverse.lookup m := by
  induction named using List.reverseRecOn with
  | nil => rfl
  | append_singleton named entry ih =>
    rw [override_concat, lookup_putNamed, ih, List.reverse_append, List.reverse_singleton,
      List.singleton_append, lookup_cons_eq]

end Named

/-! ## Dictionaries of named values -/

namespace Dict

variable {named others : List (String × Value)}

/-- The entries of a dictionary whose keys are names. -/
def entries (named : List (String × Value)) : List (Value × Value) :=
  named.map fun (name, value) => (.str name, value)

theorem same_str (s t : String) : (Value.str s).same (.str t) = (s == t) := by
  rw [Value.same]

theorem same_str_int (s : String) (n : Int) : (Value.str s).same (.int n) = false := by
  simp [Value.same, Value.quantity?]

theorem put_entries (name : String) (v : Value) (named : List (String × Value)) :
    put (entries named) (.str name) v = entries (putNamed name v named) := by
  induction named with
  | nil => rfl
  | cons entry named ih =>
    obtain ⟨n, w⟩ := entry
    show put ((.str n, w) :: entries named) (.str name) v = entries (putNamed name v ((n, w) :: named))
    rw [put, putNamed, same_str]
    by_cases hn : n = name
    · subst hn; simp [entries]
    · rw [if_neg (by simpa using hn), if_neg hn, ih]
      rfl

theorem union_entries (named others : List (String × Value)) :
    union (entries named) (entries others) = entries (override named others) := by
  induction others generalizing named with
  | nil => rfl
  | cons entry others ih =>
    show union (put (entries named) (.str entry.1) entry.2) (entries others) =
      entries (override (putNamed entry.1 entry.2 named) others)
    rw [put_entries, ih]

theorem ofNamed_eq (named : List (String × Value)) : ofNamed named = entries (override [] named) :=
  union_entries [] named

theorem find?_entries_str (named : List (String × Value)) (name : String) :
    find? (entries named) (.str name) = named.lookup name := by
  induction named with
  | nil => rfl
  | cons entry named ih =>
    show Option.map Prod.snd (((.str entry.1, entry.2) :: entries named).find? _) = _
    rw [List.find?_cons, same_str, lookup_cons_eq]
    by_cases hn : entry.1 = name
    · rw [beq_iff_eq.2 hn, if_pos hn.symm]
      rfl
    · rw [beq_eq_false_iff_ne.2 hn, if_neg (Ne.symm hn)]
      exact ih

theorem find?_entries_int (named : List (String × Value)) (n : Int) :
    find? (entries named) (.int n) = none := by
  rw [find?, Option.map_eq_none_iff, List.find?_eq_none]
  intro entry hentry
  obtain ⟨pair, -, rfl⟩ := List.mem_map.1 hentry
  rw [same_str_int]
  decide

end Dict

open Dict

/-- From a dictionary with names for keys each value is read under its name, in order. -/
theorem namedEntries?_entries {α : Type} (read : Value → Option α) {named : List (String × Value)}
    (h : (named.map Prod.fst).Nodup) :
    namedEntries? read (.dict (entries named)) =
      named.mapM fun entry => (read entry.2).map fun a => (entry.1, a) := by
  suffices hfrom : ∀ found : List (String × α),
      (found.map Prod.fst ++ named.map Prod.fst).Nodup →
        (entries named).foldlM (fun (found : List (String × α)) (entry : Value × Value) => do
          let name ← textOfValue? entry.1
          let a ← read entry.2
          return putNamed name a found) found =
        (named.mapM fun entry => (read entry.2).map fun a => (entry.1, a)).map (found ++ ·) by
    have hnil := hfrom [] h
    simpa [namedEntries?] using hnil
  clear h
  -- the values that are read so far have other names than those to come
  induction named with
  | nil => intro found _; simp [entries]
  | cons entry named ih =>
    intro found hnames
    obtain ⟨name, v⟩ := entry
    have hnew : name ∉ found.map Prod.fst := by
      intro hmem
      rw [List.nodup_append] at hnames
      exact hnames.2.2 name hmem name (by simp) rfl
    show List.foldlM _ found ((.str name, v) :: entries named) = _
    rw [List.foldlM_cons, List.mapM_cons]
    cases hread : read v with
    | none => simp [textOfValue?]
    | some a =>
      have hrest : ((putNamed name a found).map Prod.fst ++ named.map Prod.fst).Nodup := by
        rw [putNamed_of_notMem hnew]
        simpa using hnames
      have hlater := ih _ hrest
      rw [putNamed_of_notMem hnew] at hlater
      show (some (putNamed name a found) >>= fun found => List.foldlM _ found (entries named)) = _
      rw [Option.bind_eq_bind, Option.bind_some, putNamed_of_notMem hnew, hlater]
      cases named.mapM fun entry => (read entry.2).map fun a => (entry.1, a) with
      | none => rfl
      | some others => simp

/-- What a reference finds in a dictionary of named values. -/
def foundIn (named : List (String × Value)) : Ref → Option Value
  | .name name => named.lookup name
  | .position _ => none

/-- What is given for a reference that finds a value or nothing. -/
def givenFor (ref : Ref) : Option Value → Except Error Value
  | some v => .ok v
  | none => .error (unbound ref.toValue)

/-- Looking a reference up in a dictionary gives what is found there. -/
theorem resolver_dict (entries : List (Value × Value)) (ref : Ref) :
    (Context.mapping (.dict entries)).resolver ref =
      givenFor ref (Dict.find? entries ref.toValue) := by
  show resolveKey (.dict entries) ref.toValue = _
  cases hfound : Dict.find? entries ref.toValue with
  | some v => exact resolveKey_of_find? ref.unhashable?_toValue hfound
  | none => exact resolveKey_of_find?_eq_none ref.unhashable?_toValue hfound

/-- **A reference gets what its name finds**, or is unbound. -/
theorem resolver_entries (named : List (String × Value)) (ref : Ref) :
    (Context.mapping (.dict (entries named))).resolver ref = givenFor ref (foundIn named ref) := by
  rw [resolver_dict]
  cases ref with
  | name name => exact congrArg _ (find?_entries_str named name)
  | position n => exact congrArg _ (find?_entries_int named n)

theorem foundIn_override (base named : List (String × Value)) (ref : Ref) :
    foundIn (override base named) ref =
      (foundIn (override [] named) ref).or (foundIn base ref) := by
  cases ref with
  | name name => exact lookup_override base named name
  | position _ => rfl

/-- Of two dictionaries of named values the second is asked where the first has no value. -/
theorem resolver_chain_entries (named others : List (String × Value)) (ref : Ref) :
    (Context.chain [.mapping (.dict (entries named)), .mapping (.dict (entries others))]).resolver
        ref = givenFor ref ((foundIn named ref).or (foundIn others ref)) := by
  rw [resolver_pair, Resolver.asked, resolver_entries, resolver_entries]
  cases ref with
  | name name => cases foundIn named (.name name) <;> cases foundIn others (.name name) <;> rfl
  | position n => exact (congrArg _ (firstBound_self _)).trans (firstBound_self _)

end ShellTemplate
