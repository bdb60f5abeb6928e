import ShellTemplate.Proofs.RenderOutcome

/-!
# What assignments can express

Values and lists are given on the command line as items of text. Any text can be the value of a
name, with further equals signs and commas. A list is given by its items with commas between them,
so none of them may hold one; and as an empty text is the empty list, the list of the empty text
cannot be given. What is left can be, with the empty list and with empty items.

* `listItems_intercalate` — a list is read back from its items with commas between them.
* `KeepsLast`, `keepsLast_override` — which of several values of a name is kept, and the order.
* `outcome_of_firstFaulty?` — how a rendering with an item that is no assignment ends.
* `assignments_express_lists_and_scalars` — what some items come to.
-/

set_option autoImplicit false

namespace ShellTemplate.CommandLine

/-! ## Names and lists -/

/-- A name that can be given a value: it is not empty and holds no equals sign. -/
structure IsAssignable (name : String) : Prop where
  nonempty : name ≠ ""
  unequal : '=' ∉ name.toList

instance : DecidablePred IsAssignable := fun name =>
  decidable_of_iff (name ≠ "" ∧ '=' ∉ name.toList)
    ⟨fun h => ⟨h.1, h.2⟩, fun h => ⟨h.nonempty, h.unequal⟩⟩

theorem IsAssignable.assigns {name : String} (h : IsAssignable name) (value : String) :
    Assigns (name ++ "=" ++ value) (name, value) :=
  ⟨h.nonempty, h.unequal, rfl⟩

/-- A list whose items can be told apart by commas. -/
structure IsListable (items : List String) : Prop where
  commaFree : ∀ item ∈ items, ',' ∉ item.toList
  proper : items ≠ [""]

instance : DecidablePred IsListable := fun items =>
  decidable_of_iff ((∀ item ∈ items, ',' ∉ item.toList) ∧ items ≠ [""])
    ⟨fun h => ⟨h.1, h.2⟩, fun h => ⟨h.commaFree, h.proper⟩⟩

/-- **A list is read back from its items with commas between them.** -/
theorem listItems_intercalate {items : List String} (h : IsListable items) :
    listItems (String.intercalate "," items) = items := by
  rcases eq_or_ne items [] with rfl | hne
  · rfl
  have hcommas : ∀ cs ∈ items.map String.toList, ',' ∉ cs := by
    rw [List.forall_mem_map]
    exact h.commaFree
  have hsplit : (String.intercalate "," items).toList.splitOn ',' = items.map String.toList := by
    rw [String.toList_intercalate]
    exact List.splitOn_intercalate ',' hcommas (by simpa using hne)
  -- only the list of the empty text has the empty text between its commas
  have hnonempty : String.intercalate "," items ≠ "" := by
    intro hempty
    rw [hempty] at hsplit
    exact h.proper (List.map_injective_iff.2 (fun _ _ => String.toList_inj.1) hsplit.symm)
  rw [listItems, if_neg (by simpa using hnonempty), hsplit, List.map_map]
  simp

/-! ## The values that are kept -/

/-- A dictionary of named values has the last value of each name, and the names stand in it in the
order in which they first occur. -/
structure KeepsLast {α : Type} (named kept : List (String × α)) : Prop where
  names : kept.map Prod.fst = (named.map Prod.fst).eraseDups
  last : ∀ name, kept.lookup name = named.reverse.lookup name

theorem keepsLast_override {α : Type} (named : List (String × α)) :
    KeepsLast named (override [] named) :=
  ⟨names_override_nil named, lookup_override_nil named⟩

/-- The values of some items are those of the pairs that the items assign. -/
theorem assignments_of_assigns {α : Type} {pairs : List α} {item : α → String}
    {pair : α → String × String} (asList : Bool) (h : ∀ a ∈ pairs, Assigns (item a) (pair a)) :
    assignments asList (pairs.map item) =
      .ok (override [] (pairs.map fun a => ((pair a).1, assigned asList (pair a).2))) := by
  have hall : List.Forall₂ Assigns (pairs.map item) (pairs.map pair) := by
    rw [List.forall₂_map_left_iff, List.forall₂_map_right_iff, List.forall₂_same]
    exact h
  rw [assignments, assignInto_of_assigns hall, assignedTo, List.map_map]
  rfl

/-- Assignments of lists keep the last list of each name. -/
theorem assignments_lists {pairs : List (String × List String)}
    (h : ∀ pair ∈ pairs, IsAssignable pair.1 ∧ IsListable pair.2) :
    ∃ kept, assignments true (pairs.map fun pair =>
        pair.1 ++ "=" ++ String.intercalate "," pair.2) = .ok kept ∧
      KeepsLast (pairs.map fun pair => (pair.1, .list (pair.2.map .str))) kept := by
  have hread : ∀ pair ∈ pairs,
      (pair.1, assigned true (String.intercalate "," pair.2)) =
        (pair.1, Value.list (pair.2.map .str)) := by
    intro pair hpair
    rw [assigned, if_pos rfl, listItems_intercalate (h pair hpair).2]
  refine ⟨_, assignments_of_assigns true fun pair hpair => (h pair hpair).1.assigns _, ?_⟩
  rw [List.map_congr_left hread]
  exact keepsLast_override _

/-- Assignments of scalars keep the last value of each name, as it was given. -/
theorem assignments_scalars {pairs : List (String × String)}
    (h : ∀ pair ∈ pairs, IsAssignable pair.1) :
    ∃ kept, assignments false (pairs.map fun pair => pair.1 ++ "=" ++ pair.2) = .ok kept ∧
      KeepsLast (pairs.map fun pair => (pair.1, .str pair.2)) kept :=
  ⟨_, assignments_of_assigns false fun pair hpair => (h pair hpair).assigns pair.2,
    keepsLast_override _⟩

/-! ## Faulty items -/

/-- A rendering fails for the first item that is no assignment and prints nothing else. -/
theorem outcome_of_firstFaulty? (packages : Packages) (streams : Terminal.Streams) (files : Files)
    {args : List String} {r : Rendering} (hargs : Command.ofArguments? args = some (.render r))
    {item : String} (h : firstFaulty? (r.scalars ++ r.lists) = some item) :
    outcome packages streams files args =
      ⟨1, "", told streams ("Error: Expected name=value, got " ++ Text.quotation item)⟩ :=
  outcome_of_notAssignment hargs (assignedValues_of_firstFaulty? h)

/-- **Assignments express every scalar, and every list whose items can be told apart.** Of several
values of a name the last one is kept, and the names keep their order. If an item is no assignment,
the first such item is returned, and a rendering with it fails with a message that names it. -/
theorem assignments_express_lists_and_scalars :
    (∀ pairs : List (String × List String),
      (∀ pair ∈ pairs, IsAssignable pair.1 ∧ IsListable pair.2) →
      ∃ kept, assignments true (pairs.map fun pair =>
          pair.1 ++ "=" ++ String.intercalate "," pair.2) = .ok kept ∧
        KeepsLast (pairs.map fun pair => (pair.1, .list (pair.2.map .str))) kept) ∧
    (∀ pairs : List (String × String), (∀ pair ∈ pairs, IsAssignable pair.1) →
      ∃ kept, assignments false (pairs.map fun pair => pair.1 ++ "=" ++ pair.2) = .ok kept ∧
        KeepsLast (pairs.map fun pair => (pair.1, .str pair.2)) kept) ∧
    (∀ items : List String, (∃ item ∈ items, IsNoAssignment item) →
      ∃ item, firstFaulty? items = some item ∧
        ∀ asList, assignments asList items = .error item) ∧
    ∀ (packages : Packages) (streams : Terminal.Streams) (files : Files) (args : List String)
      (r : Rendering), Command.ofArguments? args = some (.render r) →
      (∃ item ∈ r.scalars ++ r.lists, IsNoAssignment item) →
      ∃ item, firstFaulty? (r.scalars ++ r.lists) = some item ∧
        outcome packages streams files args =
          ⟨1, "", told streams ("Error: Expected name=value, got " ++ Text.quotation item)⟩ := by
  refine ⟨?_, ?_, ?_, ?_⟩
  · intro pairs h
    exact assignments_lists h
  · intro pairs h
    exact assignments_scalars h
  · intro items hfaulty
    obtain ⟨item, -, -, hfirst⟩ := exists_firstFaulty? hfaulty
    exact ⟨item, hfirst, fun asList => assignInto_of_firstFaulty? asList hfirst []⟩
  · intro packages streams files args r hargs hfaulty
    obtain ⟨item, -, -, hfirst⟩ := exists_firstFaulty? hfaulty
    exact ⟨item, hfirst, outcome_of_firstFaulty? packages streams files hargs hfirst⟩

/-- Two lists of one name, the second one with empty items, and the empty list. -/
def repeatedLists : List (String × List String) := [("b", ["x"]), ("a", []), ("b", ["", "y", ""])]

theorem repeatedNames_keep_last :
    (∀ pair ∈ repeatedLists, IsAssignable pair.1 ∧ IsListable pair.2) ∧
    (∃ kept, assignments true ["b=x", "a=", "b=,y,"] = .ok kept ∧
      KeepsLast (repeatedLists.map fun pair => (pair.1, .list (pair.2.map .str))) kept) ∧
    (∃ kept, assignments false ["a=", "a==x,y"] = .ok kept ∧
      KeepsLast [("a", .str ""), ("a", .str "=x,y")] kept) ∧
    (∀ asList, assignments asList ["a=1", "=2", "b"] = .error "=2") ∧
    outcome .runnable ⟨false, false⟩ configuredFiles ["render", "-l", "=2", "-s", "a", "t"] =
      ⟨1, "", "Error: Expected name=value, got 'a'\n"⟩ := by
  obtain ⟨hlists, hscalars, hfaulty, hfails⟩ := assignments_express_lists_and_scalars
  have hlistable : ∀ pair ∈ repeatedLists, IsAssignable pair.1 ∧ IsListable pair.2 := by decide
  have hscalar : ∀ pair ∈ [("a", ""), ("a", "=x,y")], IsAssignable pair.1 := by decide
  refine ⟨hlistable, hlists _ hlistable, hscalars _ hscalar, ?_, ?_⟩
  · obtain ⟨item, hfirst, herror⟩ := hfaulty ["a=1", "=2", "b"] ⟨"b", by decide, by decide⟩
    obtain rfl : "=2" = item := Option.some.inj hfirst
    exact herror
  · obtain ⟨item, hfirst, houtcome⟩ := hfails .runnable ⟨false, false⟩ configuredFiles
      ["render", "-l", "=2", "-s", "a", "t"] ⟨"t", ["a"], ["=2"], none, none⟩ (by decide)
      ⟨"a", by decide, by decide⟩
    obtain rfl : "a" = item := Option.some.inj hfirst
    rw [houtcome]
    decide +kernel

end ShellTemplate.CommandLine
