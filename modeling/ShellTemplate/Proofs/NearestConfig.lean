import ShellTemplate.Config.Load
import ShellTemplate.Files.Location

/-!
# The nearest configuration file

The search for a configuration file goes through the paths above its start as the start is written.
That is not the same as the directories above the one where it starts: a relative path has nothing
above the current directory, and behind a double dot a path goes on to directories that are not
above it.

* `find?_fewer_eq_some_iff` — the first of the shorter lists of steps that will do is the longest.
* `Config.find?_eq_some_iff`, `Config.find?_eq_none_iff` — what is found, for any start.
* `Config.findsNearest_of_plain` — without double dots the nearest file is found among the
  directories from the one where paths start down to the start.
* `Config.find?_nearest` — all of it; from an absolute start or none at all these are all the
  directories above.
-/

set_option autoImplicit false

namespace ShellTemplate

/-! ## The longest of the first steps -/

section Fewer

variable {p : List String → Bool} {steps front : List String}

theorem longest_of_find?_fewer (h : (Path.fewer steps).find? p = some front) {other : List String}
    (hother : other <+: steps) (hp : p other = true) : other <+: front := by
  induction steps generalizing p front other with
  | nil =>
    rw [List.prefix_nil.1 hother]
    exact List.nil_prefix
  | cons step rest ih =>
    rw [Path.fewer, List.find?_append, List.find?_map, Option.or_eq_some_iff] at h
    cases other with
    | nil => exact List.nil_prefix
    | cons first others =>
      obtain ⟨rfl, hothers⟩ := List.cons_prefix_cons.1 hother
      rcases h with hlonger | ⟨hnone, -⟩
      · obtain ⟨front, hfront, rfl⟩ := Option.map_eq_some_iff.1 hlonger
        exact (List.prefix_cons_inj first).2 (ih hfront hothers hp)
      · -- this one is longer than the last and would do
        have hmiss := List.find?_eq_none.1 (Option.map_eq_none_iff.1 hnone)
        exact absurd hp (hmiss others (Path.mem_fewer.2 hothers))

/-- **The first of the shorter lists of steps that will do is the longest.** -/
theorem find?_fewer_eq_some_iff :
    (Path.fewer steps).find? p = some front ↔ front <+: steps ∧ p front = true ∧
      ∀ other, other <+: steps → p other = true → other <+: front := by
  constructor
  · intro h
    exact ⟨Path.mem_fewer.1 (List.mem_of_find?_eq_some h), List.find?_some h,
      fun other => longest_of_find?_fewer h⟩
  · rintro ⟨hfront, hp, hlongest⟩
    cases hfind : (Path.fewer steps).find? p with
    | none => exact absurd hp (List.find?_eq_none.1 hfind front (Path.mem_fewer.2 hfront))
    | some found =>
      have hfound := Path.mem_fewer.1 (List.mem_of_find?_eq_some hfind)
      have hle : found <+: front := hlongest found hfound (List.find?_some hfind)
      have hge : front <+: found := longest_of_find?_fewer hfind hfront hp
      rw [hle.eq_of_length_le hge.length_le]

end Fewer

/-! ## Directories with a configuration -/

/-- Whether there is an entry with the name of a configuration file in a directory. -/
def Entry.HasConfig (root : Entry) (directory : List String) : Prop :=
  (root.at? (directory ++ [Config.fileName])).isSome

/-- A directory with a configuration, the nearest one above another from some directory on. -/
structure Entry.IsNearest (root : Entry) (top location nearest : List String) : Prop where
  below : top <+: nearest
  above : nearest <+: location
  hasConfig : root.HasConfig nearest
  nearest : ∀ other, top <+: other → other <+: location → root.HasConfig other → other <+: nearest

/-- The law of the search, for the directories from some directory on: if one of them has a
configuration, then the configuration of the nearest one is found, and otherwise none. -/
structure Entry.FindsNearest (root : Entry) (current top location : List String)
    (result : Option Path) : Prop where
  found : ∀ directory, top <+: directory → directory <+: location → root.HasConfig directory →
    ∃ nearest q, root.IsNearest top location nearest ∧ result = some q ∧
      root.Names current q (nearest ++ [Config.fileName])
  missing : (∀ directory, top <+: directory → directory <+: location →
    ¬ root.HasConfig directory) → result = none

namespace Config

open Entry

variable {root : Entry} {current location : List String} {start q : Path}

/-- A path above the start, with so many of its steps. -/
def above (start : Path) (front : List String) : Path := { start with steps := front }

theorem exists?_candidate_iff {p : Path} :
    (root.files current).exists? (p.child fileName) = true ↔
      ∃ directory, root.Names current p directory ∧ root.HasConfig directory := by
  rw [exists?_files_iff]
  simp only [names_child_iff (show fileName ≠ ".." by decide)]
  constructor
  · rintro ⟨_, directory, hnames, -, hpresent⟩
    exact ⟨directory, hnames, hpresent⟩
  · rintro ⟨directory, hnames, hpresent⟩
    exact ⟨_, directory, hnames, rfl, hpresent⟩

theorem find?_eq_map (files : Files) (start : Path) :
    find? files start = ((Path.fewer start.steps).find? fun front =>
      files.exists? ((above start front).child fileName)).map fun front =>
        (above start front).child fileName := by
  rw [find?, candidates, Path.upward, List.map_map, List.find?_map]
  rfl

/-- **What is found**, for any start: the configuration in the directory that the longest path above
the start names that names one with a configuration. -/
theorem find?_eq_some_iff :
    find? (root.files current) start = some q ↔ ∃ front directory,
      front <+: start.steps ∧ q = (above start front).child fileName ∧
      root.Names current (above start front) directory ∧ root.HasConfig directory ∧
      ∀ other directory', other <+: start.steps →
        root.Names current (above start other) directory' → root.HasConfig directory' →
          other <+: front := by
  rw [find?_eq_map, Option.map_eq_some_iff]
  simp only [find?_fewer_eq_some_iff, exists?_candidate_iff]
  constructor
  · rintro ⟨front, ⟨hfront, ⟨directory, hnames, hconfig⟩, hlongest⟩, rfl⟩
    exact ⟨front, directory, hfront, rfl, hnames, hconfig,
      fun other directory' hother hnames' hconfig' =>
        hlongest other hother ⟨directory', hnames', hconfig'⟩⟩
  · rintro ⟨front, directory, hfront, rfl, hnames, hconfig, hlongest⟩
    refine ⟨front, ⟨hfront, ⟨directory, hnames, hconfig⟩, ?_⟩, rfl⟩
    rintro other hother ⟨directory', hnames', hconfig'⟩
    exact hlongest other directory' hother hnames' hconfig'

/-- Nothing is found if no path above the start names a directory with a configuration. -/
theorem find?_eq_none_iff :
    find? (root.files current) start = none ↔ ∀ front directory, front <+: start.steps →
      root.Names current (above start front) directory → ¬ root.HasConfig directory := by
  rw [find?_eq_map, Option.map_eq_none_iff, List.find?_eq_none]
  simp only [exists?_candidate_iff, Path.mem_fewer]
  constructor
  · intro h front directory hfront hnames hconfig
    exact h front hfront ⟨directory, hnames, hconfig⟩
  · rintro h front hfront ⟨directory, hnames, hconfig⟩
    exact h front directory hfront hnames hconfig

/-! ## Starts without double dots -/

/-- The directory where a path starts. -/
def topOf (current : List String) (p : Path) : List String := if p.absolute then [] else current

theorem stepsFromRoot_eq (current : List String) (p : Path) :
    stepsFromRoot current p = topOf current p ++ p.steps := by
  unfold stepsFromRoot topOf
  split <;> rfl

theorem names_iff_of_plain (hcurrent : root.IsDirectoryAt current) {p : Path}
    (hplain : ".." ∉ p.steps) :
    root.Names current p location ↔
      location = topOf current p ++ p.steps ∧ (root.at? location).isSome := by
  have htop : ".." ∉ topOf current p := by
    unfold topOf
    split
    · exact List.not_mem_nil
    · exact hcurrent.named
  have hsteps : ".." ∉ topOf current p ++ p.steps := by
    rw [List.mem_append, not_or]
    exact ⟨htop, hplain⟩
  rw [Names, stepsFromRoot_eq, leads_iff_of_plain hsteps rfl, List.nil_append]
  exact and_congr_right fun hlocation => by rw [hlocation]

theorem names_above_iff (hcurrent : root.IsDirectoryAt current) (hplain : ".." ∉ start.steps)
    {front directory : List String} (hfront : front <+: start.steps) :
    root.Names current (above start front) directory ↔
      directory = topOf current start ++ front ∧ (root.at? directory).isSome := by
  have hsteps : ".." ∉ (above start front).steps := fun hmem => hplain (hfront.subset hmem)
  exact names_iff_of_plain hcurrent hsteps

/-- A directory on the way to the start is named by a path above the start, if there is something in
it. -/
theorem exists_front_of_hasConfig (hcurrent : root.IsDirectoryAt current)
    (hplain : ".." ∉ start.steps) {directory : List String}
    (htop : topOf current start <+: directory)
    (hbelow : directory <+: topOf current start ++ start.steps)
    (hconfig : root.HasConfig directory) :
    ∃ front, front <+: start.steps ∧ directory = topOf current start ++ front ∧
      root.Names current (above start front) directory := by
  obtain ⟨front, rfl⟩ := htop
  have hfront : front <+: start.steps := (List.prefix_append_right_inj _).1 hbelow
  have hthere : (root.at? (topOf current start ++ front)).isSome :=
    isSome_at?_front hconfig (List.prefix_append _ _)
  exact ⟨front, hfront, rfl, (names_above_iff hcurrent hplain hfront).2 ⟨rfl, hthere⟩⟩

/-- **Without double dots** the nearest configuration is found among the directories from the one
where the start starts. -/
theorem findsNearest_of_plain (hcurrent : root.IsDirectoryAt current)
    (hplain : ".." ∉ start.steps) (hstart : root.Names current start location) :
    root.FindsNearest current (topOf current start) location
      (find? (root.files current) start) := by
  obtain ⟨rfl, -⟩ := (names_iff_of_plain hcurrent hplain).1 hstart
  constructor
  · intro directory htop hbelow hconfig
    obtain ⟨front, hfront, -, hdirectory⟩ :=
      exists_front_of_hasConfig hcurrent hplain htop hbelow hconfig
    cases hfind : find? (root.files current) start with
    | none => exact absurd hconfig (find?_eq_none_iff.1 hfind front directory hfront hdirectory)
    | some q =>
      obtain ⟨front, nearest, hfront, rfl, hnearest, hconfig, hlongest⟩ :=
        find?_eq_some_iff.1 hfind
      refine ⟨nearest, _, ?_, rfl, ?_⟩
      · obtain ⟨rfl, -⟩ := (names_above_iff hcurrent hplain hfront).1 hnearest
        refine ⟨List.prefix_append _ _, (List.prefix_append_right_inj _).2 hfront, hconfig, ?_⟩
        intro other htop hbelow hconfig
        obtain ⟨front', hfront', rfl, hother⟩ :=
          exists_front_of_hasConfig hcurrent hplain htop hbelow hconfig
        exact (List.prefix_append_right_inj _).2 (hlongest front' _ hfront' hother hconfig)
      · rw [names_child_iff (by decide)]
        exact ⟨nearest, hnearest, rfl, hconfig⟩
  · intro hnone
    rw [find?_eq_none_iff]
    intro front directory hfront hdirectory
    obtain ⟨rfl, -⟩ := (names_above_iff hcurrent hplain hfront).1 hdirectory
    exact hnone _ (List.prefix_append _ _) ((List.prefix_append_right_inj _).2 hfront)

/-- What is nearest from some directory on is the nearest of all, unless there is nothing from that
directory on. -/
theorem findsNearest_root_iff {top : List String} {result : Option Path} (htop : top <+: location)
    (h : root.FindsNearest current top location result) :
    root.FindsNearest current [] location result ↔
      ((∃ directory, directory <+: location ∧ root.HasConfig directory) →
        ∃ directory, top <+: directory ∧ directory <+: location ∧ root.HasConfig directory) := by
  constructor
  · rintro hall ⟨directory, hbelow, hconfig⟩
    apply Classical.byContradiction
    intro hnone
    obtain ⟨-, q, -, hfound, -⟩ := hall.found directory List.nil_prefix hbelow hconfig
    have hmissing : result = none :=
      h.missing fun other htop hbelow hconfig => hnone ⟨other, htop, hbelow, hconfig⟩
    rw [hfound] at hmissing
    cases hmissing
  · intro hsome
    constructor
    · intro directory _ hbelow hconfig
      obtain ⟨below, htop', hbelow', hconfig'⟩ := hsome ⟨directory, hbelow, hconfig⟩
      obtain ⟨nearest, q, hnearest, hfound, hnames⟩ := h.found below htop' hbelow' hconfig'
      refine ⟨nearest, q, ⟨List.nil_prefix, hnearest.above, hnearest.hasConfig, ?_⟩, hfound, hnames⟩
      intro other _ hother hconfig
      -- a directory above the top is above the nearest one
      rcases List.prefix_or_prefix_of_prefix htop hother with hlower | hupper
      · exact hnearest.nearest other hlower hother hconfig
      · exact hupper.trans hnearest.below
    · intro hnone
      apply h.missing
      intro directory _ hbelow
      exact hnone directory List.nil_prefix hbelow

/-- **The nearest configuration.** From any start the configuration is found that is in the
directory which the longest path above the start names. Without double dots this is the nearest of
the directories from the one where paths start down to the start, so it is the nearest of all unless
only directories above the current one have a configuration. From no start it always is. -/
theorem find?_nearest (hcurrent : root.IsDirectoryAt current)
    (hstart : root.Names current start location) :
    (∀ q, find? (root.files current) start = some q ↔ ∃ front directory,
      front <+: start.steps ∧ q = (above start front).child fileName ∧
      root.Names current (above start front) directory ∧ root.HasConfig directory ∧
      ∀ other directory', other <+: start.steps →
        root.Names current (above start other) directory' → root.HasConfig directory' →
          other <+: front) ∧
    (".." ∉ start.steps →
      root.FindsNearest current (topOf current start) location
        (find? (root.files current) start) ∧
      (root.FindsNearest current [] location (find? (root.files current) start) ↔
        ((∃ directory, directory <+: location ∧ root.HasConfig directory) →
          ∃ directory, topOf current start <+: directory ∧ directory <+: location ∧
            root.HasConfig directory))) ∧
    (start.absolute = true → ".." ∉ start.steps →
      root.FindsNearest current [] location (find? (root.files current) start)) ∧
    root.FindsNearest current [] current
      (find? (root.files current) (root.files current).current) := by
  refine ⟨fun q => find?_eq_some_iff, ?_, ?_, ?_⟩
  · intro hplain
    have hnearest := findsNearest_of_plain hcurrent hplain hstart
    obtain ⟨rfl, -⟩ := (names_iff_of_plain hcurrent hplain).1 hstart
    exact ⟨hnearest, findsNearest_root_iff (List.prefix_append _ _) hnearest⟩
  · intro habsolute hplain
    have hnearest := findsNearest_of_plain hcurrent hplain hstart
    rwa [topOf, if_pos habsolute] at hnearest
  · obtain ⟨entries, hdirectory⟩ := hcurrent.directory
    have hplain : ".." ∉ (root.files current).current.steps := hcurrent.named
    have hnames : root.Names current (root.files current).current current := by
      rw [names_iff_of_plain hcurrent hplain, hdirectory]
      exact ⟨rfl, rfl⟩
    exact findsNearest_of_plain hcurrent hplain hnames

/-- A directory with a configuration beside one without, and one in it. -/
def siblingTree : Entry :=
  .directory [("a", .directory [(fileName, .file []), ("c", .directory [])]), ("b", .directory [])]

theorem find?_below_current :
    siblingTree.IsDirectoryAt ["a"] ∧ siblingTree.Names ["a"] ⟨false, ["c"]⟩ ["a", "c"] ∧
      find? (siblingTree.files ["a"]) ⟨false, ["c"]⟩ = some ⟨false, [fileName]⟩ ∧
      siblingTree.FindsNearest ["a"] [] ["a", "c"]
        (find? (siblingTree.files ["a"]) ⟨false, ["c"]⟩) := by
  have hcurrent : siblingTree.IsDirectoryAt ["a"] := ⟨by decide, _, rfl⟩
  have hstart : siblingTree.Names ["a"] ⟨false, ["c"]⟩ ["a", "c"] :=
    .into (by decide) rfl (.into (by decide) rfl (.here _))
  obtain ⟨-, hplain, -, -⟩ := find?_nearest hcurrent hstart
  obtain ⟨-, hlaw⟩ := hplain (by decide)
  exact ⟨hcurrent, hstart, rfl, hlaw.2 fun _ => ⟨["a"], ⟨[], rfl⟩, ⟨["c"], rfl⟩, rfl⟩⟩

/-- Behind a double dot the configuration of a directory is found that is not above the start. -/
theorem find?_beside_current :
    siblingTree.IsDirectoryAt ["a"] ∧ siblingTree.IsDirectoryAt ["b"] ∧
      siblingTree.Names ["a"] ⟨false, ["..", "b"]⟩ ["b"] ∧
      find? (siblingTree.files ["a"]) ⟨false, ["..", "b"]⟩ = some ⟨false, [fileName]⟩ ∧
      ¬ siblingTree.FindsNearest ["a"] [] ["b"]
        (find? (siblingTree.files ["a"]) ⟨false, ["..", "b"]⟩) := by
  have hfound : find? (siblingTree.files ["a"]) ⟨false, ["..", "b"]⟩ =
      some ⟨false, [fileName]⟩ := rfl
  refine ⟨⟨by decide, _, rfl⟩, ⟨by decide, _, rfl⟩,
    .into (by decide) rfl (.up rfl (.into (by decide) rfl (.here _))), hfound, ?_⟩
  intro hlaw
  have hnone : ∀ directory, [] <+: directory → directory <+: ["b"] →
      ¬ siblingTree.HasConfig directory := by
    intro directory _ hbelow
    have hcases : directory = [] ∨ directory = ["b"] := by
      cases directory with
      | nil => exact .inl rfl
      | cons first rest =>
        obtain ⟨rfl, hrest⟩ := List.cons_prefix_cons.1 hbelow
        rw [List.prefix_nil.1 hrest]
        exact .inr rfl
    rcases hcases with rfl | rfl <;> exact nofun
  rw [hlaw.missing hnone] at hfound
  cases hfound

end Config

end ShellTemplate
