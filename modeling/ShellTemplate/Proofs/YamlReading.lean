import ShellTemplate.Proofs.YamlScanning
import ShellTemplate.Yaml.Node

/-!
# What the nodes of a YAML text are refused for

The reader of nodes passes on the fault of the token that stops the scanning, or finds the tokens
malformed. It never looks behind a token that it has taken, so the tokens that it leaves are tokens
of the text. The readers call each other with one fuel, so they are treated together.

* `Reader.Sound` — the tokens to come are sound.
* `ReadersConclude` — what holds of all readers of nodes with some fuel.
* `ReadersConclude.succ`, `readersConclude` — one more unit of fuel, and any number of them.

Principal result: `readNode_faults`.
-/

set_option autoImplicit false

namespace ShellTemplate.Yaml

variable {text : List Char}

/-! ## Steps of the reader -/

/-- The tokens to come are sound. -/
def Reader.Sound (text : List Char) (r : Reader) : Prop := ∀ token ∈ r.tokens, token.Sound text

/-- What holds of the reading of a part of the document. -/
abbrev Reads {α : Type} (text : List Char) : Except Fault (α × Reader) → Prop :=
  Concludes (ScanFault text) fun result => result.2.Sound text

namespace Reader

variable {r : Reader}

theorem Sound.refuse (h : r.Sound text) {α : Type} {Q : α → Prop} :
    Concludes (ScanFault text) Q r.refuse := by
  unfold Reader.refuse
  split
  · rename_i fault rest htokens
    exact h (.stop fault) (htokens ▸ List.mem_cons_self)
  · exact .malformed

theorem Sound.onto {first : Token} {rest : List Token} (h : r.Sound text)
    (htokens : r.tokens = first :: rest) : (r.onto rest).Sound text :=
  fun token ht => h token (htokens ▸ List.mem_cons_of_mem first ht)

theorem Sound.bind (h : r.Sound text) (anchor : Option String) (node : Option Node) :
    (r.bind anchor node).Sound text := by
  cases anchor <;> exact h

theorem Sound.pastComma (h : r.Sound text) (first : Bool) (ending : Token → Bool) :
    Concludes (ScanFault text) (Reader.Sound text) (r.pastComma first ending) := by
  unfold Reader.pastComma
  split
  · exact h
  · split
    · rename_i htokens
      exact h.onto htokens
    · exact h.refuse

theorem concludes_tagName (handle : Option String) (name : String) (r : Reader) :
    Concludes (ScanFault text) (fun _ => True) (r.tagName handle name) := by
  unfold Reader.tagName
  split
  · trivial
  · split
    · trivial
    · exact .malformed

theorem Sound.properties (h : r.Sound text) :
    Concludes (ScanFault text) (fun result => result.2.2.Sound text) r.properties := by
  unfold Reader.properties
  split
  rename_i anchor tag rest hparts
  have hrest : (r.onto rest).Sound text := by
    split at hparts <;> rename_i htokens <;> cases hparts
    · exact (h.onto htokens).onto rfl
    · exact (h.onto htokens).onto rfl
    · exact h.onto htokens
    · exact h.onto htokens
    · exact h
  dsimp only
  split
  · exact .malformed
  · cases tag with
    | none => exact hrest
    | some tag =>
      have hname : Concludes (ScanFault text) (fun _ => True)
          ((r.tagName tag.1 tag.2).map some) := (concludes_tagName tag.1 tag.2 r).map fun _ h => h
      exact hname.bind fun _ _ => hrest

end Reader

/-! ## Readers of nodes -/

/-- What holds of the readers of nodes with some fuel. -/
structure ReadersConclude (text : List Char) (fuel : Nat) : Prop where
  node : ∀ place {r}, r.Sound text → Reads text (node fuel place r)
  content : ∀ place marked tag {r}, r.Sound text → Reads text (content fuel place marked tag r)
  nodeUnless : ∀ ends place {r}, r.Sound text → Reads text (nodeUnless fuel ends place r)
  valueNode : ∀ ends place {r}, r.Sound text → Reads text (valueNode fuel ends place r)
  blockSequence : ∀ items {r}, r.Sound text → Reads text (blockSequence fuel items r)
  flushSequence : ∀ items {r}, r.Sound text → Reads text (flushSequence fuel items r)
  blockMapping : ∀ entries {r}, r.Sound text → Reads text (blockMapping fuel entries r)
  flowSequence : ∀ first items {r}, r.Sound text → Reads text (flowSequence fuel first items r)
  flowMapping : ∀ first entries {r}, r.Sound text → Reads text (flowMapping fuel first entries r)

theorem readersConclude_zero (text : List Char) : ReadersConclude text 0 where
  node _ _ h := h.refuse
  content _ _ _ _ h := h.refuse
  nodeUnless _ _ _ h := h.refuse
  valueNode _ _ _ h := h.refuse
  blockSequence _ _ h := h.refuse
  flushSequence _ _ h := h.refuse
  blockMapping _ _ h := h.refuse
  flowSequence _ _ _ h := h.refuse
  flowMapping _ _ _ h := h.refuse

namespace ReadersConclude

variable {fuel : Nat} {r : Reader}

theorem node_succ (ih : ReadersConclude text fuel) (place : Place) (h : r.Sound text) :
    Reads text (Yaml.node (fuel + 1) place r) := by
  unfold Yaml.node
  split
  · rename_i htokens
    split
    · exact h.onto htokens
    · exact .malformed
  · refine h.properties.bind ?_
    rintro ⟨anchor, tag, next⟩ hnext
    refine (ih.content place _ tag (hnext.bind anchor none)).bind ?_
    rintro ⟨found, behind⟩ hbehind
    exact hbehind.bind anchor (some found)

theorem content_succ (ih : ReadersConclude text fuel) (place : Place) (marked : Bool)
    (tag : Option String) (h : r.Sound text) :
    Reads text (Yaml.content (fuel + 1) place marked tag r) := by
  unfold Yaml.content
  split <;> try rename_i htokens
  · exact h.onto htokens
  · exact h.onto htokens
  · exact (ih.flowSequence true [] (h.onto htokens)).bind fun _ hnext => hnext
  · exact (ih.flowMapping true [] (h.onto htokens)).bind fun _ hnext => hnext
  · exact (ih.blockSequence [] (h.onto htokens)).bind fun _ hnext => hnext
  · exact (ih.blockSequence [] (h.onto htokens)).bind fun _ hnext => hnext
  · exact (ih.blockMapping [] (h.onto htokens)).bind fun _ hnext => hnext
  · exact (ih.blockMapping [] (h.onto htokens)).bind fun _ hnext => hnext
  · exact (ih.flushSequence [] h).bind fun _ hnext => hnext
  · split
    · exact h
    · exact h.refuse

theorem nodeUnless_succ (ih : ReadersConclude text fuel) (ends : Token → Bool) (place : Place)
    (h : r.Sound text) : Reads text (Yaml.nodeUnless (fuel + 1) ends place r) := by
  unfold Yaml.nodeUnless
  split
  · exact h
  · exact ih.node place h

theorem valueNode_succ (ih : ReadersConclude text fuel) (ends : Token → Bool) (place : Place)
    (h : r.Sound text) : Reads text (Yaml.valueNode (fuel + 1) ends place r) := by
  unfold Yaml.valueNode
  split
  · rename_i htokens
    exact ih.nodeUnless ends place (h.onto htokens)
  · exact h

theorem blockSequence_succ (ih : ReadersConclude text fuel) (items : List Node)
    (h : r.Sound text) : Reads text (Yaml.blockSequence (fuel + 1) items r) := by
  unfold Yaml.blockSequence
  split
  · rename_i htokens
    exact (ih.nodeUnless _ _ (h.onto htokens)).bind fun _ hnext => ih.blockSequence _ hnext
  · rename_i htokens
    exact h.onto htokens
  · exact h.refuse

theorem flushSequence_succ (ih : ReadersConclude text fuel) (items : List Node)
    (h : r.Sound text) : Reads text (Yaml.flushSequence (fuel + 1) items r) := by
  unfold Yaml.flushSequence
  split
  · rename_i htokens
    exact (ih.nodeUnless _ _ (h.onto htokens)).bind fun _ hnext => ih.flushSequence _ hnext
  · exact h

/-- A key token, a key and its value, and what is read behind them. -/
theorem concludes_keyed (ih : ReadersConclude text fuel) {rest : List Token} {α : Type}
    (h : r.Sound text) (htokens : r.tokens = .key :: rest) (endsKey endsValue : Token → Bool)
    (place : Place) {f : Node → Node → Reader → Except Fault (α × Reader)}
    (hf : ∀ key value {next : Reader}, next.Sound text → Reads text (f key value next)) :
    Reads text (do
      let (key, r) ← Yaml.nodeUnless fuel endsKey place (r.onto rest)
      let (value, r) ← Yaml.valueNode fuel endsValue place r
      f key value r) := by
  refine (ih.nodeUnless endsKey place (h.onto htokens)).bind ?_
  rintro ⟨key, next⟩ hnext
  refine (ih.valueNode endsValue place hnext).bind ?_
  rintro ⟨value, behind⟩ hbehind
  exact hf key value hbehind

theorem blockMapping_succ (ih : ReadersConclude text fuel) (entries : List (Node × Node))
    (h : r.Sound text) : Reads text (Yaml.blockMapping (fuel + 1) entries r) := by
  unfold Yaml.blockMapping
  split
  · rename_i htokens
    exact ih.concludes_keyed
      (f := fun key value => Yaml.blockMapping fuel ((key, value) :: entries))
      h htokens _ _ _ fun _ _ _ hnext => ih.blockMapping _ hnext
  · rename_i htokens
    exact h.onto htokens
  · exact h.refuse

theorem flowSequence_succ (ih : ReadersConclude text fuel) (first : Bool) (items : List Node)
    (h : r.Sound text) : Reads text (Yaml.flowSequence (fuel + 1) first items r) := by
  unfold Yaml.flowSequence
  refine (h.pastComma first _).bind fun r h => ?_
  split
  · rename_i htokens
    exact h.onto htokens
  · rename_i htokens
    exact ih.concludes_keyed
      (f := fun key value =>
        Yaml.flowSequence fuel false (.ofEntries .mapping [(key, value)] :: items))
      h htokens _ _ _ fun _ _ _ hnext => ih.flowSequence _ _ hnext
  · exact (ih.node .flow h).bind fun _ hnext => ih.flowSequence _ _ hnext

theorem flowMapping_succ (ih : ReadersConclude text fuel) (first : Bool)
    (entries : List (Node × Node)) (h : r.Sound text) :
    Reads text (Yaml.flowMapping (fuel + 1) first entries r) := by
  unfold Yaml.flowMapping
  refine (h.pastComma first _).bind fun r h => ?_
  split
  · rename_i htokens
    exact h.onto htokens
  · rename_i htokens
    exact ih.concludes_keyed
      (f := fun key value => Yaml.flowMapping fuel false ((key, value) :: entries))
      h htokens _ _ _ fun _ _ _ hnext => ih.flowMapping _ _ hnext
  · exact (ih.node .flow h).bind fun _ hnext => ih.flowMapping _ _ hnext

theorem succ (ih : ReadersConclude text fuel) : ReadersConclude text (fuel + 1) where
  node place _ h := ih.node_succ place h
  content place marked tag _ h := ih.content_succ place marked tag h
  nodeUnless ends place _ h := ih.nodeUnless_succ ends place h
  valueNode ends place _ h := ih.valueNode_succ ends place h
  blockSequence items _ h := ih.blockSequence_succ items h
  flushSequence items _ h := ih.flushSequence_succ items h
  blockMapping entries _ h := ih.blockMapping_succ entries h
  flowSequence first items _ h := ih.flowSequence_succ first items h
  flowMapping first entries _ h := ih.flowMapping_succ first entries h

end ReadersConclude

/-- A reader of nodes leaves sound tokens, or fails for a fault of scanning. -/
theorem readersConclude (text : List Char) (fuel : Nat) : ReadersConclude text fuel := by
  induction fuel with
  | zero => exact readersConclude_zero text
  | succ fuel ih => exact ih.succ

/-! ## Documents -/

theorem concludes_directives (versioned : Bool) (handles : List (String × String))
    {tokens : List Token} (h : ∀ token ∈ tokens, token.Sound text) :
    Concludes (ScanFault text) (fun result => ∀ token ∈ result.2, token.Sound text)
      (directives versioned handles tokens) := by
  fun_induction directives versioned handles tokens with
  | case1 => exact .malformed
  | case2 _ _ _ _ _ ih => exact ih fun token ht => h token (List.mem_cons_of_mem _ ht)
  | case3 => exact .malformed
  | case4 _ _ _ _ _ _ ih => exact ih fun token ht => h token (List.mem_cons_of_mem _ ht)
  | case5 _ _ _ ih => exact ih fun token ht => h token (List.mem_cons_of_mem _ ht)
  | case6 => exact h

theorem Reader.Sound.requireEnd {r : Reader} {tokens : List Token} (h : r.Sound text)
    (htokens : ∀ token ∈ tokens, token.Sound text) :
    Concludes (ScanFault text) (fun _ => True) (requireEnd r tokens) := by
  fun_induction Yaml.requireEnd r tokens with
  | case1 r rest ih =>
    have hrest := fun token ht => htokens token (List.mem_cons_of_mem _ ht)
    exact ih hrest hrest
  | case2 => trivial
  | case3 => exact h.refuse

/-- A node of the document with nothing but its end behind it. -/
theorem concludes_wholeNode {r : Except Fault (Node × Reader)} (h : Reads text r) :
    Concludes (ScanFault text) (fun _ => True) (do
      let (found, r) ← r
      requireEnd r r.tokens
      return some found) := by
  refine h.bind ?_
  rintro ⟨found, next⟩ hnext
  exact (hnext.requireEnd hnext).bind fun _ _ => trivial

theorem concludes_documentNode {tokens : List Token} (h : ∀ token ∈ tokens, token.Sound text) :
    Concludes (ScanFault text) (fun _ => True) (documentNode tokens) := by
  have hnodes := readersConclude text (4 * tokens.length + 4)
  unfold documentNode
  dsimp only
  split
  case h_1 => trivial
  case h_4 => exact concludes_wholeNode (hnodes.node .block h)
  -- a document with directives or with a line that starts it
  all_goals
    refine (concludes_directives false [] h).bind ?_
    rintro ⟨handles, rest⟩ hrest
    have hreader : Reader.Sound text ⟨rest, [], handles⟩ := hrest
    dsimp only
    split
    · exact concludes_wholeNode (hnodes.nodeUnless _ _ (hreader.onto rfl))
    · exact hreader.refuse

/-- **What a document is refused for**: it is no YAML, or an escape in it is beyond the last code
point. -/
theorem readNode_faults (text : List Char) :
    Concludes (ScanFault text) (fun _ => True) (readNode text) := by
  unfold readNode
  split
  · exact concludes_documentNode (sound_scan text)
  · exact .malformed

end ShellTemplate.Yaml
