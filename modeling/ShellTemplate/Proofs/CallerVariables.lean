import ShellTemplate.Proofs.NamedValues
import ShellTemplate.Proofs.TemplateGrammar
import ShellTemplate.Template.Basic

/-!
# The variables of the caller

A text can be expanded in a call that is given nothing to look references up in. Then, and only
then, the variables of the frame that the call was made from stand in: its local variables, and
where they do not have a name its global ones. No other frame is ever read.

* `Frame.resolver_context` — what a reference finds among the variables of a frame.
* `Frame.capture_append` — frames further out than the depth asked for have no say.
* `contextOfCall_caller`, `contextOfCall_given` — what serves as the context of a call.
* `expandTextFrom_reads_only_caller` — all this for the line of the call.
-/

set_option autoImplicit false

namespace ShellTemplate

open Dict Shell

/-! ## Frames -/

namespace Frame

/-- What a reference finds among the variables of a frame: a local one, or else a global one. -/
def value? (f : Frame) (ref : Ref) : Option Value :=
  (foundIn (override [] f.locals) ref).or (foundIn (override [] f.globals) ref)

/-- The values that the variables of a frame give for references. -/
def resolver (f : Frame) : Resolver := fun ref => givenFor ref (f.value? ref)

/-- **A captured frame gives its local variables**, and its global ones where they are not
hidden. -/
theorem resolver_context (f : Frame) : f.context.resolver = f.resolver := by
  funext ref
  have hbindings :
      f.bindings = entries (override (override [] f.globals) (override [] f.locals)) := by
    rw [bindings, ofNamed_eq, ofNamed_eq, union_entries]
  have hagain : override [] (override [] f.locals) = override [] f.locals :=
    override_nil_eq_self (nodup_override List.nodup_nil)
  show (Context.mapping (.dict f.bindings)).resolver ref = f.resolver ref
  rw [hbindings, resolver_entries, foundIn_override, hagain]
  rfl

/-- Frames further out than the depth that is asked for have no say. -/
theorem capture_append {inner : List Frame} {depth : Nat} (h : depth < inner.length)
    (outer : List Frame) : capture (outer ++ inner) depth = capture inner depth := by
  unfold capture
  rw [List.reverse_append, List.getElem?_append_left]
  rwa [List.length_reverse]

end Frame

/-! ## Calls -/

section Calls

variable {source : String} {context : Value} {values : List (String × Value)}

/-- A call that was given nothing takes the variables of the frame that it was made from. -/
theorem contextOfCall_caller (source : String) (outer : List Frame) (caller : Frame) :
    contextOfCall (outer ++ [caller]) source .null [] = .ok (.context caller.context) := by
  have hframes : outer ++ [caller] ++ [callFrame source .null []] =
      outer ++ [caller, callFrame source .null []] := List.append_assoc ..
  have hcapture : Frame.capture (outer ++ [caller] ++ [callFrame source .null []]) 1 =
      some caller.context := by
    rw [hframes, Frame.capture_append Nat.one_lt_two]
    rfl
  rw [contextOfCall, hcapture]

/-- A call that was given something, if only an empty context, keeps to it. -/
theorem contextOfCall_given (h : context ≠ .null ∨ values ≠ []) (callers : List Frame)
    (source : String) : contextOfCall callers source context values = .ok context := by
  unfold contextOfCall
  split
  · rcases h with h | h
    · exact absurd rfl h
    · exact absurd rfl h
  · rfl

/-- The template of a text in the style that is used without being asked for. -/
theorem make_str (source : String) :
    Template.make (.str source) "minimal" = (Template.parse source).map fun parts =>
      ⟨some source, parts.map .part, .minimal⟩ := by
  unfold Template.make
  dsimp only
  cases Template.parse source <;> rfl

/-- **A call reads the variables of its caller exactly if it is given nothing else.** Without a
context and without named values its line is that of the text against the variables of the frame
that it was made from, whatever the frames further out. With either of them, be it empty, its line
is that of the template against them, and the same in front of any frames. -/
theorem expandTextFrom_reads_only_caller (source : String) :
    (∀ outer caller, expandTextFrom (outer ++ [caller]) source .null [] = (do
      let parts ← Template.parse source
      expandItems .minimal caller.resolver (parts.map .part))) ∧
    (∀ context values, context ≠ .null ∨ values ≠ [] →
      (∀ callers, expandTextFrom callers source context values = (do
        let t ← Template.make (.str source) "minimal"
        t.expand context values)) ∧
      ∀ callers callers', expandTextFrom callers source context values =
        expandTextFrom callers' source context values) := by
  constructor
  · intro outer caller
    rw [expandTextFrom, contextOfCall_caller, make_str, ← caller.resolver_context]
    cases Template.parse source <;> rfl
  · intro context values h
    have hgiven : ∀ callers, expandTextFrom callers source context values = (do
        let t ← Template.make (.str source) "minimal"
        t.expand context values) := by
      intro callers
      rw [expandTextFrom, contextOfCall_given h]
      rfl
    refine ⟨hgiven, ?_⟩
    intro callers callers'
    rw [hgiven, hgiven]

/-- A frame that has a variable of the same name as the caller. -/
def outerFrame : Frame := ⟨[("y", .str "outer")], [("x", .str "outer")]⟩

/-- A caller with a global variable that a local one hides. -/
def hidingFrame : Frame := ⟨[("x", .str "hidden"), ("y", .str "top")], [("x", .str "here")]⟩

theorem hidingFrame_is_read_alone :
    expandTextFrom [outerFrame, hidingFrame] "\x7bx\x7d \x7by\x7d" .null [] = .ok "here top" ∧
      (Value.list [] ≠ .null ∨ ([] : List (String × Value)) ≠ []) ∧
      expandTextFrom [outerFrame, hidingFrame] "\x7bx\x7d \x7by\x7d" (.list []) [] =
        .error (.unresolved (.str "x") (some 0)) ∧
      expandTextFrom [outerFrame, hidingFrame] "\x7bx\x7d \x7by\x7d" .null [("x", .str "given")] =
        .error (.unresolved (.str "y") (some 1)) ∧
      ∀ callers, expandTextFrom callers "\x7bx\x7d \x7by\x7d" (.list []) [] =
        expandTextFrom [hidingFrame] "\x7bx\x7d \x7by\x7d" (.list []) [] := by
  have hparse : Template.parse "\x7bx\x7d \x7by\x7d" = .ok
      [.placeholder ⟨false, false, .name "x"⟩, .placeholder ⟨false, false, .name "y"⟩] := by
    have hchars : "\x7bx\x7d \x7by\x7d".toList = ['{', 'x', '}', ' ', '{', 'y', '}'] := rfl
    have hfirst : Template.word ['{', 'x', '}', ' ', '{', 'y', '}'] =
        .done (.placeholder ⟨false, false, .name "x"⟩) [' ', '{', 'y', '}'] := rfl
    have hsecond : Template.word ['{', 'y', '}'] =
        .done (.placeholder ⟨false, false, .name "y"⟩) [] := rfl
    rw [Template.parse, hchars, Template.readParts_word rfl hfirst,
      Template.readParts_word rfl hsecond, Template.readParts_end rfl]
    rfl
  have hempty : Value.list [] ≠ .null ∨ ([] : List (String × Value)) ≠ [] :=
    .inl fun h => by cases h
  have hnamed : Value.null ≠ .null ∨ [("x", Value.str "given")] ≠ [] :=
    .inr (List.cons_ne_nil _ _)
  obtain ⟨halone, hgiven⟩ := expandTextFrom_reads_only_caller "\x7bx\x7d \x7by\x7d"
  refine ⟨?_, hempty, ?_, ?_, fun callers => (hgiven _ _ hempty).2 callers [hidingFrame]⟩
  · have hline := halone [outerFrame] hidingFrame
    rw [hparse] at hline
    exact hline
  · rw [(hgiven _ _ hempty).1, make_str, hparse]
    rfl
  · rw [(hgiven _ _ hnamed).1, make_str, hparse]
    rfl

end Calls

end ShellTemplate
