/-!
# Paths

A path is read as it is written: empty steps and single dots do not count, and double dots are kept
as steps of their own.

* `Path.upward` — a path and the paths above it as it is written, the nearest first.
-/

namespace ShellTemplate

/-- A path from the root or from the current directory. -/
structure Path where
  absolute : Bool
  steps : List String
deriving DecidableEq, Repr, Inhabited

namespace Path

/-- The path that a text is. -/
def ofString (s : String) : Path where
  absolute := s.toList.head? = some '/'
  steps := ((s.toList.splitOn '/').map String.ofList).filter fun step => step ≠ "" ∧ step ≠ "."

/-- The text of a path; that of the current directory is a dot. -/
def text (p : Path) : String :=
  let joined := String.intercalate "/" p.steps
  if p.absolute then "/" ++ joined else if p.steps.isEmpty then "." else joined

/-- The path of an entry of a directory. -/
def child (p : Path) (name : String) : Path := { p with steps := p.steps ++ [name] }

/-- The first steps of a list of steps: all of them, all but the last, and so on to none. -/
def fewer : List String → List (List String)
  | [] => [[]]
  | step :: rest => (fewer rest).map (step :: ·) ++ [[]]

/-- The path itself and the paths above it, the nearest first. -/
def upward (p : Path) : List Path := (fewer p.steps).map fun steps => { p with steps := steps }

theorem mem_fewer {steps front : List String} : front ∈ fewer steps ↔ front <+: steps := by
  induction steps generalizing front with
  | nil => simp [fewer]
  | cons step rest ih =>
    simp only [fewer, List.mem_append, List.mem_map, List.mem_singleton, ih]
    constructor
    · rintro (⟨front', h, rfl⟩ | rfl)
      · exact (List.prefix_cons_inj step).2 h
      · exact List.nil_prefix
    · intro h
      cases front with
      | nil => exact Or.inr rfl
      | cons first front' =>
        obtain ⟨same, behind⟩ := List.cons_prefix_cons.1 h
        exact Or.inl ⟨front', behind, by rw [same]⟩

/-- The paths above a path are those whose steps are the first steps of it. -/
theorem mem_upward {p q : Path} : q ∈ p.upward ↔ q.absolute = p.absolute ∧ q.steps <+: p.steps := by
  simp only [upward, List.mem_map, mem_fewer]
  constructor
  · rintro ⟨steps, h, rfl⟩
    exact ⟨rfl, h⟩
  · rintro ⟨same, h⟩
    exact ⟨q.steps, h, by cases q; cases same; rfl⟩

end Path

end ShellTemplate
