import ShellTemplate.Proofs.ErrorPlaces
import ShellTemplate.Proofs.PlainContexts

/-!
# Expanding one list of parts behind another

An expansion goes from left to right and stops at the first value that gives no token. So the line
of two lists is the line of the first, a space, and the line of the second, and its error is that of
the first list, or else that of the second with its index moved past the first.

* `tokensFrom_append` — the tokens of two lists, one behind the other.
* `exists_first_failure` — an error is that of the leftmost value that fails.
* `locatedAt_of_token` — over offered values, the error of a part tells its index and its reference.
* `expandValue_append` — all of it, for whatever serves as a context.
-/

set_option autoImplicit false

namespace ShellTemplate

open Shell

variable {resolve : Resolver} {style : Style}

/-! ## Lines -/

theorem tokensFrom_append (index : Nat) (p q : List Value) :
    tokensFrom style resolve index (p ++ q) = do
      let tokens ← tokensFrom style resolve index p
      let tokens' ← tokensFrom style resolve (index + p.length) q
      return tokens ++ tokens' := by
  induction p generalizing index with
  | nil =>
    simp only [List.nil_append, tokensFrom, List.length_nil, Nat.add_zero]
    cases tokensFrom style resolve index q <;> rfl
  | cons v p ih =>
    have hnext : index + 1 + p.length = index + (v :: p).length := by
      rw [List.length_cons]; omega
    simp only [List.cons_append, tokensFrom, ih, hnext]
    cases tokenOfValue style resolve index v with
    | error e => rfl
    | ok token =>
      cases tokensFrom style resolve (index + 1) p with
      | error e => rfl
      | ok tokens => cases tokensFrom style resolve (index + (v :: p).length) q <;> rfl

theorem length_tokensFrom {index : Nat} {items : List Value} {tokens : List String}
    (h : tokensFrom style resolve index items = .ok tokens) : tokens.length = items.length := by
  induction items generalizing index tokens with
  | nil => cases h; rfl
  | cons v items ih =>
    obtain ⟨token, -, h⟩ := except_bind_eq_ok.1 h
    obtain ⟨rest, hrest, h⟩ := except_bind_eq_ok.1 h
    cases h
    exact congrArg Nat.succ (ih hrest)

theorem spaced_singleton (t : String) : spaced [t] = t := by
  rw [← String.toList_inj, toList_spaced]
  simp [List.intercalate_singleton]

theorem spaced_cons {t : String} {texts : List String} (h : texts ≠ []) :
    spaced (t :: texts) = t ++ " " ++ spaced texts := by
  obtain ⟨u, texts, rfl⟩ := List.exists_cons_of_ne_nil h
  rw [← String.toList_inj]
  simp [toList_spaced, List.intercalate_cons_cons]

theorem spaced_append {texts texts' : List String} (h : texts ≠ []) (h' : texts' ≠ []) :
    spaced (texts ++ texts') = spaced texts ++ " " ++ spaced texts' := by
  induction texts with
  | nil => exact absurd rfl h
  | cons t texts ih =>
    cases texts with
    | nil =>
      rw [List.singleton_append, spaced_cons h', spaced_singleton]
    | cons u texts =>
      have hrest : u :: texts ≠ [] := List.cons_ne_nil u texts
      have happend : u :: texts ++ texts' ≠ [] := List.cons_ne_nil u _
      rw [List.cons_append, spaced_cons happend, ih hrest, spaced_cons hrest]
      simp only [String.append_assoc]

/-- The line of two lists from the lines of each: a space stands between them, if there are two. -/
def joinedLine (p q : List Value) (line line' : String) : String :=
  if p.isEmpty then line' else if q.isEmpty then line else line ++ " " ++ line'

/-- Tokens of two lists, one for each value, make the line of both. -/
theorem spaced_append_eq_joinedLine {p q : List Value} {tokens tokens' : List String}
    (h : tokens.length = p.length) (h' : tokens'.length = q.length) :
    spaced (tokens ++ tokens') = joinedLine p q (spaced tokens) (spaced tokens') := by
  unfold joinedLine
  cases p with
  | nil =>
    obtain rfl : tokens = [] := List.length_eq_zero_iff.1 h
    rfl
  | cons v p =>
    have hne : tokens ≠ [] := by rintro rfl; cases h
    cases q with
    | nil =>
      obtain rfl : tokens' = [] := List.length_eq_zero_iff.1 h'
      rw [List.append_nil]
      rfl
    | cons v' q =>
      have hne' : tokens' ≠ [] := by rintro rfl; cases h'
      exact spaced_append hne hne'

section Append

variable {p q : List Value} {line line' : String} {e : Error}

theorem expandItems_append_error (h : expandItems style resolve p = .error e) :
    expandItems style resolve (p ++ q) = .error e := by
  have hp : tokensFrom style resolve 0 p = .error e := except_map_eq_error.1 h
  rw [expandItems, except_map_eq_error, tokensFrom_append, hp]
  rfl

theorem expandItems_append_error_right {passes : Error → Prop}
    (hpasses : ∀ ref, Uses q ref → resolve.Passes passes ref)
    (h : expandItems style resolve p = .ok line) (h' : expandItems style resolve q = .error e) :
    ∃ e', expandItems style resolve (p ++ q) = .error e' ∧
      (e.MovedBy p.length e' ∨ e' = e ∧ passes e) := by
  obtain ⟨tokens, hp, -⟩ := except_map_eq_ok.1 h
  have hq : tokensFrom style resolve 0 q = .error e := except_map_eq_error.1 h'
  have hdisplaced := displaced_tokensFrom hpasses style p.length 0
  rw [hq] at hdisplaced
  simp only [expandItems, except_map_eq_error, tokensFrom_append, hp]
  generalize tokensFrom style resolve (0 + p.length) q = r at hdisplaced
  cases hdisplaced with
  | moved => exact ⟨_, rfl, .inl (e.movedBy_shift p.length)⟩
  | passed own => exact ⟨_, rfl, .inr ⟨rfl, own⟩⟩

theorem expandItems_append_ok {passes : Error → Prop}
    (hpasses : ∀ ref, Uses q ref → resolve.Passes passes ref)
    (h : expandItems style resolve p = .ok line) (h' : expandItems style resolve q = .ok line') :
    expandItems style resolve (p ++ q) = .ok (joinedLine p q line line') := by
  obtain ⟨tokens, hp, rfl⟩ := except_map_eq_ok.1 h
  obtain ⟨tokens', hq, rfl⟩ := except_map_eq_ok.1 h'
  have hdisplaced := displaced_tokensFrom hpasses style p.length 0
  rw [hq] at hdisplaced
  have hmoved : tokensFrom style resolve (0 + p.length) q = .ok tokens' := by
    generalize tokensFrom style resolve (0 + p.length) q = r at hdisplaced
    cases hdisplaced
    rfl
  have happend : tokensFrom style resolve 0 (p ++ q) = .ok (tokens ++ tokens') := by
    rw [tokensFrom_append, hp, hmoved]
    rfl
  rw [expandItems, happend,
    ← spaced_append_eq_joinedLine (length_tokensFrom hp) (length_tokensFrom hq)]
  rfl

end Append

/-! ## The leftmost failure -/

theorem expandItems_singleton (v : Value) :
    expandItems style resolve [v] = tokenOfValue style resolve 0 v := by
  unfold expandItems
  simp only [tokensFrom]
  cases tokenOfValue style resolve 0 v with
  | error e => rfl
  | ok token => exact congrArg Except.ok (spaced_singleton token)

/-- A value fares anywhere as it does by itself, but for the index of the error. -/
theorem displaced_expandItems_singleton {passes : Error → Prop} {v : Value}
    (h : ∀ ref, v.ref? = some ref → resolve.Passes passes ref) (style : Style) (index : Nat) :
    Displaced passes index (expandItems style resolve [v])
      (tokenOfValue style resolve index v) := by
  have hdisplaced := displaced_tokenOfValue h style index 0
  rwa [Nat.zero_add, ← expandItems_singleton] at hdisplaced

/-- **An expansion fails with the error of the leftmost value that fails.** -/
theorem exists_first_failure {passes : Error → Prop} {index : Nat} {items : List Value} {e : Error}
    (hpasses : ∀ ref, Uses items ref → resolve.Passes passes ref)
    (h : tokensFrom style resolve index items = .error e) :
    ∃ before item after, items = before ++ item :: after ∧
      (∀ b ∈ before, ∃ t, expandItems style resolve [b] = .ok t) ∧
      (∃ e', expandItems style resolve [item] = .error e') ∧
      tokenOfValue style resolve (index + before.length) item = .error e := by
  induction items generalizing index with
  | nil => cases h
  | cons v items ih =>
    have hdisplaced := displaced_expandItems_singleton
      (fun ref href => hpasses ref ⟨v, List.mem_cons_self, href⟩) style index
    rcases except_bind_eq_error.1 h with hv | ⟨t, hv, h⟩
    · rw [hv] at hdisplaced
      refine ⟨[], v, items, rfl, nofun, ?_, hv⟩
      generalize expandItems style resolve [v] = r at hdisplaced
      cases hdisplaced <;> exact ⟨_, rfl⟩
    · rcases except_bind_eq_error.1 h with hrest | ⟨tokens, -, h⟩
      · obtain ⟨before, item, after, rfl, hbefore, hfails, hitem⟩ := ih (fun ref ⟨w, hw, href⟩ =>
          hpasses ref ⟨w, List.mem_cons_of_mem v hw, href⟩) hrest
        refine ⟨v :: before, item, after, rfl, ?_, hfails, ?_⟩
        · intro b hb
          rcases List.mem_cons.1 hb with rfl | hb
          · rw [hv] at hdisplaced
            generalize expandItems style resolve [b] = r at hdisplaced
            cases hdisplaced
            exact ⟨t, rfl⟩
          · exact hbefore b hb
        · have hplace : index + (v :: before).length = index + 1 + before.length := by
            rw [List.length_cons]; omega
          rw [hplace]
          exact hitem
      · cases h

/-! ## Errors of parts -/

/-- One of the three errors of a placeholder, with the index of the part and its reference. -/
inductive Error.LocatedAt (index : Nat) (ref : Ref) : Error → Prop where
  | unresolved : LocatedAt index ref (.unresolved ref.toValue (some index))
  | typeMismatch (expected : String) (value : Value) :
    LocatedAt index ref (.typeMismatch ref.toValue expected value (some index))
  | badAtom (value : Value) : LocatedAt index ref (.badAtom value (some index) (some ref.toValue))

/-- What gives a value that can be written for a reference, or leaves the reference unbound. -/
def Resolver.IsPlain (resolve : Resolver) : Prop :=
  ∀ ref, (∃ v, v.IsWritable ∧ resolve ref = .ok v) ∨
    resolve ref = .error (unbound ref.toValue)

theorem locatedAt_of_scalarText {index : Nat} {ref : Ref} {v : Value} {e : Error}
    (href : ref.toValue.IsWritable) (hwritable : v.IsWritable)
    (h : scalarText index ref v = .error e) : e.LocatedAt index ref := by
  obtain ⟨e', he, rfl⟩ := except_mapError_eq_error.1 h
  obtain ⟨w, hw, rfl⟩ := exists_badAtom hwritable (except_map_eq_error.1 he)
  rw [Error.locate, Error.raised_badAtom_ref hw href]
  exact .badAtom w

theorem locatedAt_mismatch {index : Nat} {ref : Ref} (href : ref.toValue.IsWritable)
    (expected : String) (v : Value) : (mismatch index ref expected v).LocatedAt index ref := by
  rw [mismatch, Error.raised_typeMismatch href]
  exact .typeMismatch expected v

theorem exists_mem_of_mapM_error {ε α β : Type} {f : α → Except ε β} {xs : List α} {e : ε}
    (h : xs.mapM f = .error e) : ∃ x ∈ xs, f x = .error e := by
  obtain ⟨before, x, after, rfl, -, hx⟩ := mapM_eq_error_iff.1 h
  exact ⟨x, List.mem_append_right before List.mem_cons_self, hx⟩

theorem locatedAt_of_placeTexts (plain : resolve.IsPlain) {index : Nat} {place : Placeholder}
    {e : Error} (href : place.ref.toValue.IsWritable)
    (h : placeTexts resolve index place = .error e) : e.LocatedAt index place.ref := by
  rcases plain place.ref with ⟨v, hwritable, hv⟩ | hunbound
  · rw [placeTexts_of_ok hv] at h
    split at h
    · next items _ hitems =>
      obtain ⟨w, hw, he⟩ := exists_mem_of_mapM_error h
      exact locatedAt_of_scalarText href (isWritable_of_mem_listItems hwritable hitems hw) he
    · cases h; exact locatedAt_mismatch href "list" v
    · cases h; exact locatedAt_mismatch href "scalar" v
    · exact locatedAt_of_scalarText href hwritable (except_map_eq_error.1 h)
  · rw [placeTexts_of_error hunbound, unbound_of_writable href, Error.place,
      Error.raised_unresolved href] at h
    cases h
    exact .unresolved

/-- **The error of a part tells its index and its reference**, if they can be written. -/
theorem locatedAt_of_token (plain : resolve.IsPlain) {index : Nat} {part : Part} {e : Error}
    (href : ∀ ref, part.ref? = some ref → ref.toValue.IsWritable)
    (h : token style resolve index part = .error e) :
    ∃ ref, part.ref? = some ref ∧ e.LocatedAt index ref := by
  have htexts : partTexts resolve index part = .error e := except_map_eq_error.1 h
  cases part with
  | literal a => cases htexts
  | placeholder place =>
    exact ⟨place.ref, rfl, locatedAt_of_placeTexts plain (href place.ref rfl) htexts⟩

theorem Offers.isPlain {v : Value} {values : List Value} {context : Context} (h : Offers v values)
    (hcontext : Context.ofValue v = .ok context) (hwritable : ∀ w ∈ values, w.IsWritable) :
    context.resolver.IsPlain := by
  intro ref
  rcases h.resolve hcontext ref with ⟨w, hw, hok⟩ | hunbound
  · exact Or.inl ⟨w, hwritable w hw, hok⟩
  · exact Or.inr hunbound

/-! ## Expansions in whatever serves as a context -/

theorem expandValue_list {name : String} {v : Value} {context : Context}
    (hstyle : styleOf name = .ok style) (hcontext : Context.ofValue v = .ok context)
    (items : List Value) :
    expandValue name (.list items) v = expandItems style context.resolver items := by
  simp only [expandValue, hstyle, hcontext]
  rfl

/-- **Expansion is compositional, errors included.** Two lists of parts, one behind the other, fail
with the error of the first, or else with that of the second moved to the right, or else give the
line of both. An error that a context of the caller's own raised in its own way is not moved. Over a
dictionary, a list, a tuple or a range of values that can be written, an error for a part is that of
the leftmost value that fails by itself, and tells its index and its reference. -/
theorem expandValue_append {name : String} {v : Value} {context : Context}
    (hstyle : styleOf name = .ok style) (hcontext : Context.ofValue v = .ok context)
    (p q : List Value) :
    (∀ e, expandValue name (.list p) v = .error e →
      expandValue name (.list (p ++ q)) v = .error e) ∧
    (∀ line e, expandValue name (.list p) v = .ok line →
      expandValue name (.list q) v = .error e →
        ∃ e', expandValue name (.list (p ++ q)) v = .error e' ∧
          (e.MovedBy p.length e' ∨ e' = e ∧ ∃ ref, Uses q ref ∧ context.RaisesOwn ref e)) ∧
    (∀ line line', expandValue name (.list p) v = .ok line →
      expandValue name (.list q) v = .ok line' →
        expandValue name (.list (p ++ q)) v = .ok (joinedLine p q line line')) ∧
    (∀ values e, Offers v values → (∀ w ∈ values, w.IsWritable) →
      (∀ ref, Uses p ref → ref.toValue.IsWritable) →
      expandValue name (.list p) v = .error e → ∃ before item after,
        p = before ++ item :: after ∧
        (∀ b ∈ before, ∃ t, expandValue name (.list [b]) v = .ok t) ∧
        (∃ e', expandValue name (.list [item]) v = .error e') ∧
        ∀ part, item = .part part →
          ∃ ref, part.ref? = some ref ∧ e.LocatedAt before.length ref) := by
  have hpasses : ∀ (items : List Value) (ref : Ref), Uses items ref → context.resolver.Passes
      (fun e => ∃ ref, Uses items ref ∧ context.RaisesOwn ref e) ref := by
    intro items ref huse
    refine (context.passes_resolver ref).mono fun e he => ?_
    exact he.imp_right (Or.imp_right (And.imp_right fun h => ⟨ref, huse, h⟩))
  simp only [expandValue_list hstyle hcontext]
  refine ⟨fun e h => expandItems_append_error h,
    fun line e h h' => expandItems_append_error_right (hpasses q) h h',
    fun line line' h h' => expandItems_append_ok (hpasses q) h h', ?_⟩
  intro values e hoffers hwritable hrefs h
  obtain ⟨before, item, after, hitems, hbefore, hfails, hitem⟩ :=
    exists_first_failure (hpasses p) (except_map_eq_error.1 h)
  refine ⟨before, item, after, hitems, hbefore, hfails, ?_⟩
  rintro part rfl
  rw [Nat.zero_add] at hitem
  have huses : ∀ ref, part.ref? = some ref → Uses p ref := by
    intro ref href
    rw [hitems]
    exact ⟨.part part, List.mem_append_right before List.mem_cons_self, href⟩
  exact locatedAt_of_token (hoffers.isPlain hcontext hwritable)
    (fun ref href => hrefs ref (huses ref href)) hitem

/-- A scalar, a list with something that is no atom, and a range. -/
def offeredValues : List (Value × Value) :=
  [(.str "name", .str "it's"), (.str "many", .list [.int 7, .null]), (.int 0, .range 3 0 (-1))]

/-- Parts that can be expanded. -/
def soundParts : List Value :=
  [.part (.literal (.identifier "cp")), .part (.placeholder ⟨false, true, .position 0⟩)]

/-- Parts that fail twice, and a value that is no part. -/
def brokenParts : List Value :=
  [.part (.placeholder ⟨false, false, .name "name"⟩),
    .part (.placeholder ⟨true, true, .name "many"⟩), .str "rm",
    .part (.placeholder ⟨false, false, .name "none"⟩)]

/-- The reference of each of them can be written. -/
theorem brokenParts_isWritable : ∀ ref, Uses brokenParts ref → ref.toValue.IsWritable := by
  rintro ref ⟨v, hv, href⟩
  simp only [brokenParts, List.mem_cons, List.not_mem_nil, or_false] at hv
  rcases hv with rfl | rfl | rfl | rfl <;> cases href <;> rfl

/-- The error of the broken parts: one item of the list is no atom. -/
def brokenError : Error := .badAtom .null (some 1) (some (.str "many"))

theorem expandValue_sound_append_broken :
    styleOf "minimal" = .ok .minimal ∧
      Context.ofValue (.dict offeredValues) = .ok (.mapping (.dict offeredValues)) ∧
      expandValue "minimal" (.list soundParts) (.dict offeredValues) = .ok "cp 3 2 1" ∧
      expandValue "minimal" (.list brokenParts) (.dict offeredValues) = .error brokenError ∧
      (∃ e', expandValue "minimal" (.list (soundParts ++ brokenParts)) (.dict offeredValues) =
        .error e' ∧ (brokenError.MovedBy 2 e' ∨ e' = brokenError ∧ ∃ ref, Uses brokenParts ref ∧
          (Context.mapping (.dict offeredValues)).RaisesOwn ref brokenError)) ∧
      (∃ before item after, brokenParts = before ++ item :: after ∧
        (∀ b ∈ before, ∃ t, expandValue "minimal" (.list [b]) (.dict offeredValues) = .ok t) ∧
        (∃ e', expandValue "minimal" (.list [item]) (.dict offeredValues) = .error e') ∧
        ∀ part, item = .part part →
          ∃ ref, part.ref? = some ref ∧ brokenError.LocatedAt before.length ref) := by
  have hstyle : styleOf "minimal" = .ok .minimal := rfl
  have hcontext : Context.ofValue (.dict offeredValues) = .ok (.mapping (.dict offeredValues)) := rfl
  have hsound : expandValue "minimal" (.list soundParts) (.dict offeredValues) = .ok "cp 3 2 1" := rfl
  have hbroken : expandValue "minimal" (.list brokenParts) (.dict offeredValues) =
      .error brokenError := rfl
  have hwritable : ∀ w ∈ offeredValues.map Prod.snd, w.IsWritable := by decide
  obtain ⟨-, hmoved, -, -⟩ := expandValue_append hstyle hcontext soundParts brokenParts
  obtain ⟨-, -, -, hleftmost⟩ := expandValue_append hstyle hcontext brokenParts []
  exact ⟨hstyle, hcontext, hsound, hbroken, hmoved _ _ hsound hbroken,
    hleftmost _ _ (.dict offeredValues) hwritable brokenParts_isWritable hbroken⟩

/-- A placeholder whose reference cannot even be reported. -/
theorem expandItems_placeholder_obstacle (place : Placeholder) {obstacle : Obstacle}
    (h : resolve place.ref = .error obstacle.error) :
    expandItems style resolve [.part (.placeholder place)] = .error obstacle.error := by
  rw [expandItems_singleton, tokenOfValue, token, partTexts, placeTexts_of_error h]
  cases obstacle <;> rfl

/-- A context of the caller's own that refuses everything, with an index of its own. -/
def refusing : Value :=
  .context (.custom "Picky" "<Picky object>" fun _ =>
    .error (.badAtom .null (some 5) (some (.str "x"))))

/-- One placeholder. -/
def alone (list : Bool) (ref : Ref) : List Value := [.part (.placeholder ⟨false, list, ref⟩)]

/-- **Not every error tells the part that failed.** That of a context of the caller's own is not
moved behind other parts; and a part fails with another error altogether if its reference cannot be
written, or what is wrong with its value. -/
theorem errors_without_their_part :
    (expandValue "minimal" (.list [.part (.literal (.identifier "cp"))]) refusing = .ok "cp" ∧
      expandValue "minimal" (.list (alone false (.name "a"))) refusing =
        .error (.badAtom .null (some 5) (some (.str "x"))) ∧
      expandValue "minimal"
          (.list ([.part (.literal (.identifier "cp"))] ++ alone false (.name "a"))) refusing =
        .error (.badAtom .null (some 5) (some (.str "x"))) ∧
      ∀ e', Error.MovedBy (.badAtom .null (some 5) (some (.str "x"))) 1 e' →
        e' ≠ .badAtom .null (some 5) (some (.str "x"))) ∧
    expandValue "minimal" (.list (alone false overlongPosition)) (.dict []) =
      .error (.tooManyDigits none) ∧
    expandValue "minimal" (.list (alone true (.name "v")))
      (.dict [(.str "v", .list [.bottomless])]) = .error .nestedTooDeep ∧
    ∀ index ref, ¬(Error.tooManyDigits none).LocatedAt index ref ∧
      ¬Error.nestedTooDeep.LocatedAt index ref := by
  have hstyle : styleOf "minimal" = .ok .minimal := rfl
  have hcontext : Context.ofValue (.dict []) = .ok (.mapping (.dict [])) := rfl
  have hoverlong : (Context.mapping (.dict [])).resolver overlongPosition =
      .error Obstacle.digits.error := resolver_empty_obstacle (obstacle?_position le_rfl)
  refine ⟨⟨rfl, rfl, rfl, fun e' h => ?_⟩, ?_, rfl, fun index ref => ⟨nofun, nofun⟩⟩
  · rw [h.shift_eq]
    exact fun heq => absurd (Option.some.inj (congrArg Error.index? heq)) (by decide)
  · rw [expandValue_list hstyle hcontext]
    exact expandItems_placeholder_obstacle ⟨false, false, overlongPosition⟩ hoverlong

end ShellTemplate
