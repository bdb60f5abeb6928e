import ShellTemplate.Files.Tree

/-!
# Locations in a tree

A location names the directories from the root of a tree down to an entry. A path is no location
yet: it may start from the current directory, and it may hold double dots, which lead to the
directory above.

* `Entry.at?` — the entry at a location.
* `Entry.Leads` — the location that steps lead to from another one.
* `Entry.walk_eq_some_iff` — walking gives the entry at the location that the steps lead to.
* `Entry.leads_iff_of_plain` — steps without double dots are added to the location.
* `Entry.exists?_files_iff` — a path denotes an entry if it names a location.
-/

namespace ShellTemplate

namespace Entry

/-- The entry at a location. -/
def at? : Entry → List String → Option Entry
  | e, [] => some e
  | e, name :: rest => (e.entries.lookup name).bind fun d => at? d rest

/-- Whether a directory stands at a location. A double dot is no name. -/
structure IsDirectoryAt (root : Entry) (location : List String) : Prop where
  named : ".." ∉ location
  directory : ∃ entries, root.at? location = some (.directory entries)

/-- The location that some steps lead to from another one. Only in directories are there further
steps, and above the root is the root. -/
inductive Leads (root : Entry) : List String → List String → List String → Prop where
  | here (location : List String) : Leads root location [] location
  | up {location rest found : List String} {entries : List (String × Entry)}
    (directory : root.at? location = some (.directory entries))
    (further : Leads root location.dropLast rest found) : Leads root location (".." :: rest) found
  | into {location rest found : List String} {name : String} (named : name ≠ "..")
    (present : (root.at? (location ++ [name])).isSome)
    (further : Leads root (location ++ [name]) rest found) :
    Leads root location (name :: rest) found

variable {root : Entry} {location found front rest steps current : List String} {name : String}

theorem at?_append (e : Entry) (front rest : List String) :
    e.at? (front ++ rest) = (e.at? front).bind fun d => d.at? rest := by
  induction front generalizing e with
  | nil => rfl
  | cons name front ih =>
    simp only [List.cons_append, at?, ih, Option.bind_assoc]

theorem at?_concat (e : Entry) (location : List String) (name : String) :
    e.at? (location ++ [name]) = (e.at? location).bind fun d => d.entries.lookup name := by
  rw [at?_append]
  congr 1
  funext d
  show (d.entries.lookup name).bind _ = _
  cases d.entries.lookup name <;> rfl

/-- An entry stands in a directory, and so do the directories above. -/
theorem isSome_at?_front (h : (root.at? location).isSome) (hfront : front <+: location) :
    (root.at? front).isSome := by
  obtain ⟨rest, rfl⟩ := hfront
  rw [at?_append] at h
  cases hat : root.at? front with
  | none =>
    rw [hat] at h
    cases h
  | some e => rfl

/-! ## Single steps -/

/-- In a file there are no further steps. -/
theorem not_leads_of_file {content : List UInt8}
    (hfile : root.at? location = some (.file content)) :
    ¬ Leads root location (name :: rest) found := by
  intro h
  cases h with
  | up hdirectory _ =>
    rw [hfile] at hdirectory
    cases hdirectory
  | into _ hpresent _ =>
    rw [at?_concat, hfile] at hpresent
    cases hpresent

theorem leads_up_iff {entries : List (String × Entry)}
    (hdirectory : root.at? location = some (.directory entries)) :
    Leads root location (".." :: rest) found ↔ Leads root location.dropLast rest found := by
  constructor
  · intro h
    cases h with
    | up _ hfurther => exact hfurther
    | into hnamed _ _ => exact absurd rfl hnamed
  · exact .up hdirectory

theorem leads_into_iff (hname : name ≠ "..") :
    Leads root location (name :: rest) found ↔
      (root.at? (location ++ [name])).isSome ∧ Leads root (location ++ [name]) rest found := by
  constructor
  · intro h
    cases h with
    | up _ _ => exact absurd rfl hname
    | into _ hpresent hfurther => exact ⟨hpresent, hfurther⟩
  · rintro ⟨hpresent, hfurther⟩
    exact .into hname hpresent hfurther

/-! ## Walking -/

/-- The directories above a location, the nearest first, and the entry at it. -/
inductive Stack (root : Entry) : List String → List Entry → Entry → Prop where
  | root : Stack root [] [] root
  | into {location : List String} {above : List Entry} {entries : List (String × Entry)}
    {name : String} {e : Entry} (outer : Stack root location above (.directory entries))
    (found : entries.lookup name = some e) :
    Stack root (location ++ [name]) (.directory entries :: above) e

theorem Stack.at?_eq {above : List Entry} {here : Entry} (h : Stack root location above here) :
    root.at? location = some here := by
  induction h with
  | root => rfl
  | into _ hfound ih =>
    rw [at?_concat, ih]
    exact hfound

/-- **Walking gives the entry at the location that the steps lead to.** -/
theorem walk_eq_some_iff {above : List Entry} {here e : Entry}
    (h : Stack root location above here) :
    walk above here steps = some e ↔
      ∃ found, Leads root location steps found ∧ root.at? found = some e := by
  induction steps generalizing location above here with
  | nil =>
    constructor
    · intro hwalk
      cases hwalk
      exact ⟨location, .here location, h.at?_eq⟩
    · rintro ⟨_, ⟨⟩, hat⟩
      rw [h.at?_eq] at hat
      cases hat
      rfl
  | cons step rest ih =>
    have hhere := h.at?_eq
    cases here with
    | file content =>
      constructor
      · rintro ⟨⟩
      · rintro ⟨found, hleads, -⟩
        exact absurd hleads (not_leads_of_file hhere)
    | directory entries =>
      rw [walk.eq_def]
      by_cases hup : step = ".."
      · subst hup
        simp only [if_pos, leads_up_iff hhere]
        cases h with
        | root => exact ih .root
        | into houter _ =>
          rw [List.dropLast_concat]
          exact ih houter
      · have hinto : root.at? (location ++ [step]) = entries.lookup step := by
          rw [at?_concat, hhere]
          rfl
        simp only [if_neg hup, leads_into_iff hup, hinto]
        cases hlookup : entries.lookup step with
        | none => simp
        | some d =>
          show walk _ d rest = some e ↔ _
          rw [ih (h.into hlookup)]
          simp

/-! ## Steps -/

/-- Steps lead from an entry to an entry. -/
theorem Leads.isSome_at? (h : Leads root location steps found)
    (hlocation : (root.at? location).isSome) : (root.at? found).isSome := by
  induction h with
  | here _ => exact hlocation
  | up _ _ ih => exact ih (isSome_at?_front hlocation (List.dropLast_prefix _))
  | into _ hpresent _ ih => exact ih hpresent

/-- Of some steps, the later ones lead on from where the first ones lead to. -/
theorem leads_append_iff : Leads root location (front ++ rest) found ↔
    ∃ between, Leads root location front between ∧ Leads root between rest found := by
  constructor
  · intro h
    induction front generalizing location with
    | nil => exact ⟨location, .here location, h⟩
    | cons step front ih =>
      cases h with
      | up hdirectory hfurther =>
        obtain ⟨between, hfront, hrest⟩ := ih hfurther
        exact ⟨between, .up hdirectory hfront, hrest⟩
      | into hnamed hpresent hfurther =>
        obtain ⟨between, hfront, hrest⟩ := ih hfurther
        exact ⟨between, .into hnamed hpresent hfront, hrest⟩
  · rintro ⟨between, hfront, hrest⟩
    induction hfront with
    | here _ => exact hrest
    | up hdirectory _ ih => exact .up hdirectory (ih hrest)
    | into hnamed hpresent _ ih => exact .into hnamed hpresent (ih hrest)

/-- **Steps without double dots are added to the location.** -/
theorem leads_iff_of_plain (hsteps : ".." ∉ steps) (hlocation : (root.at? location).isSome) :
    Leads root location steps found ↔
      found = location ++ steps ∧ (root.at? (location ++ steps)).isSome := by
  induction steps generalizing location with
  | nil =>
    rw [List.append_nil]
    constructor
    · rintro ⟨⟩
      exact ⟨rfl, hlocation⟩
    · rintro ⟨rfl, -⟩
      exact .here found
  | cons step rest ih =>
    rw [List.mem_cons, not_or] at hsteps
    have hsplit : location ++ step :: rest = location ++ [step] ++ rest := by simp
    rw [leads_into_iff (Ne.symm hsteps.1), hsplit]
    constructor
    · rintro ⟨hpresent, hfurther⟩
      exact (ih hsteps.2 hpresent).1 hfurther
    · rintro ⟨hfound, hpresent⟩
      have hfirst : (root.at? (location ++ [step])).isSome :=
        isSome_at?_front hpresent (List.prefix_append _ _)
      exact ⟨hfirst, (ih hsteps.2 hfirst).2 ⟨hfound, hpresent⟩⟩

/-! ## Paths -/

/-- The steps of a path from the root, where paths start in some directory. -/
def stepsFromRoot (current : List String) (p : Path) : List String :=
  if p.absolute then p.steps else current ++ p.steps

/-- The location that a path names, seen from a directory. -/
def Names (root : Entry) (current : List String) (p : Path) (location : List String) : Prop :=
  Leads root [] (stepsFromRoot current p) location

theorem stepsFromRoot_child (current : List String) (p : Path) (name : String) :
    stepsFromRoot current (p.child name) = stepsFromRoot current p ++ [name] := by
  unfold stepsFromRoot Path.child
  cases p.absolute <;> simp

/-- **A path denotes an entry if it names a location.** -/
theorem exists?_files_iff {p : Path} :
    (root.files current).exists? p = true ↔ ∃ location, Names root current p location := by
  unfold Files.exists?
  rw [Option.isSome_iff_exists]
  show (∃ e, walk [] root (stepsFromRoot current p) = some e) ↔ _
  simp only [walk_eq_some_iff Stack.root]
  constructor
  · rintro ⟨_, location, hleads, -⟩
    exact ⟨location, hleads⟩
  · rintro ⟨location, hleads⟩
    obtain ⟨e, he⟩ := Option.isSome_iff_exists.1 (hleads.isSome_at? rfl)
    exact ⟨e, location, hleads, he⟩

/-- An entry of a directory is named by its name behind a path of the directory. -/
theorem names_child_iff {p : Path} (hname : name ≠ "..") :
    Names root current (p.child name) found ↔ ∃ location, Names root current p location ∧
      found = location ++ [name] ∧ (root.at? (location ++ [name])).isSome := by
  unfold Names
  rw [stepsFromRoot_child, leads_append_iff]
  refine exists_congr fun location => and_congr_right fun hleads => ?_
  apply leads_iff_of_plain
  · rw [List.mem_singleton]
    exact hname.symm
  · exact hleads.isSome_at? rfl

end Entry

end ShellTemplate
