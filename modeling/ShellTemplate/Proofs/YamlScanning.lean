import Mathlib.Algebra.Group.Nat.Defs
import ShellTemplate.Yaml.Token

/-!
# What stops the scanning of a YAML text

The scanner only moves forward in its text, and nearly all that it refuses is no YAML. The one other
thing is an escape with eight hexadecimal digits that is beyond the last code point. Every function
of the scanner has one lemma here: it stays in the text and fails for these two faults only.

* `Concludes` — what holds of a result, whichever way it has turned out.
* `ScanFault` — the faults of scanning.
* `concludes_escape`, `stops_quotedFrom` — an escape beyond the last code point has eight digits.
* `Scanner.Sound.step`, `Scanner.Sound.run` — one more token, and all of them.

Principal result: `sound_scan`, a token stops the scanning for one of these faults only.
-/

set_option autoImplicit false

namespace ShellTemplate

/-! ## Results of both kinds -/

/-- A result that has failed has one property, and one that gives a value has another. -/
def Concludes {ε α : Type} (P : ε → Prop) (Q : α → Prop) : Except ε α → Prop
  | .error e => P e
  | .ok a => Q a

section Concludes

variable {ε α β : Type} {P : ε → Prop} {Q : α → Prop} {R : β → Prop} {r : Except ε α}

theorem Concludes.bind (h : Concludes P Q r) {f : α → Except ε β}
    (hf : ∀ a, Q a → Concludes P R (f a)) : Concludes P R (r >>= f) := by
  cases r with
  | error e => exact h
  | ok a => exact hf a h

theorem Concludes.map (h : Concludes P Q r) {f : α → β} (hf : ∀ a, Q a → R (f a)) :
    Concludes P R (r.map f) := by
  cases r with
  | error e => exact h
  | ok a => exact hf a h

theorem Concludes.of_error (h : Concludes P Q r) {e : ε} (hr : r = .error e) : P e := by
  rw [hr] at h
  exact h

theorem Concludes.of_ok (h : Concludes P Q r) {a : α} (hr : r = .ok a) : Q a := by
  rw [hr] at h
  exact h

end Concludes

namespace Yaml

/-- Why a text cannot be scanned: it is no YAML, or an escape in it is beyond the last code
point. -/
inductive ScanFault (text : List Char) : Fault → Prop
  | malformed : ScanFault text .malformed
  | escape {digits : List Char} : '\\' :: 'U' :: digits <:+ text →
      codePoint 8 digits = .error (.scalar (.scalar .codePoint)) →
      ScanFault text (.scalar (.scalar .codePoint))

variable {text : List Char}

/-! ## Places in the text -/

/-- The cursor stands somewhere in the text. -/
def Cursor.In (text : List Char) (c : Cursor) : Prop := c.rest <:+ text

/-- What holds of a result that ends somewhere in the text. -/
abbrev Stops {α : Type} (text : List Char) : Except Fault (α × Cursor) → Prop :=
  Concludes (ScanFault text) fun result => result.2.In text

namespace Cursor

variable {c : Cursor}

theorem in_start (text : List Char) : (start text).In text := List.suffix_refl text

theorem In.advance (h : c.In text) : c.advance.In text := by
  unfold Cursor.advance
  split
  · exact h
  · rename_i d rest hrest
    have htail : rest <:+ text := (List.suffix_cons d rest).trans (hrest ▸ h)
    split <;> exact htail

theorem In.forward (h : c.In text) (n : Nat) : (c.forward n).In text := by
  induction n generalizing c with
  | zero => exact h
  | succ n ih => exact ih h.advance

theorem In.takeSpan (h : c.In text) (p : Char → Bool) : (c.takeSpan p).2.In text := h.forward _

theorem In.skipSpan (h : c.In text) (p : Char → Bool) : (c.skipSpan p).In text := h.takeSpan p

theorem In.skipSpaces (h : c.In text) : c.skipSpaces.In text := h.skipSpan _

theorem In.skipComment (h : c.In text) : c.skipComment.In text := by
  unfold Cursor.skipComment
  split
  · exact h.skipSpan _
  · exact h

theorem In.lineBreak? (h : c.In text) {b : Char} {next : Cursor}
    (hbreak : c.lineBreak? = some (b, next)) : next.In text := by
  unfold Cursor.lineBreak? at hbreak
  split at hbreak
  · cases hbreak
  · split at hbreak
    · cases hbreak
      exact h.advance
    · cases hbreak

end Cursor

/-! ## Scalars -/

theorem in_gapBreaks (fuel : Nat) (breaks : List Char) {c : Cursor} (h : c.In text) :
    (gapBreaks fuel breaks c).2.In text := by
  induction fuel generalizing breaks c with
  | zero => exact h
  | succ fuel ih =>
    simp only [gapBreaks]
    split
    · exact h.skipSpaces
    · rename_i hbreak
      have hnext := h.skipSpaces.lineBreak? hbreak
      split
      · exact hnext
      · exact ih _ hnext

theorem in_plainGap {c : Cursor} (h : c.In text) : (plainGap c).next.In text := by
  have hblanks := h.takeSpan (· = ' ')
  simp only [plainGap]
  split
  · exact hblanks
  · rename_i first next hbreak
    have hnext := hblanks.lineBreak? hbreak
    split
    · exact hnext
    · have hbreaks := in_gapBreaks (next.rest.length + 1) [] hnext
      split <;> rename_i heq <;> rw [heq] at hbreaks <;> exact hbreaks

theorem in_plainFrom (flow : Bool) (indent : Int) (fuel : Nat) (read : List Char) {gap : Gap}
    (h : gap.next.In text) : (plainFrom flow indent fuel read gap).2.next.In text := by
  induction fuel generalizing read gap with
  | zero => exact h
  | succ fuel ih =>
    have hnext := in_plainGap (h.forward (plainChunk flow gap.next.rest).length)
    simp only [plainFrom]
    split
    · exact h
    · split
      · exact hnext
      · exact ih _ hnext

theorem in_plainScalar (flow : Bool) (indent : Int) {c : Cursor} (h : c.In text) :
    (plainScalar flow indent c).2.next.In text :=
  in_plainFrom flow indent _ [] h

theorem stops_quotedBreaks (fuel : Nat) (breaks : List Char) {c : Cursor} (h : c.In text) :
    Stops text (quotedBreaks fuel breaks c) := by
  induction fuel generalizing breaks c with
  | zero => exact .malformed
  | succ fuel ih =>
    simp only [quotedBreaks]
    split
    · exact .malformed
    · split
      · exact h.skipSpan _
      · rename_i hbreak
        exact ih _ ((h.skipSpan _).lineBreak? hbreak)

theorem hexValue?_lt {c : Char} {n : Nat} (h : Json.hexValue? c = some n) : n < 16 := by
  unfold Json.hexValue? at h
  split at h
  · rename_i hdigit
    have hle : c.toNat ≤ 57 := (Char.isDigit_iff_toNat.1 hdigit).2
    obtain rfl : c.toNat - 48 = n := Option.some.inj h
    omega
  split at h
  · rename_i hletter
    have hle : c.toNat ≤ 102 := UInt32.le_iff_toNat_le.1 hletter.2
    obtain rfl : c.toNat - 97 + 10 = n := Option.some.inj h
    omega
  split at h
  · rename_i hletter
    have hle : c.toNat ≤ 70 := UInt32.le_iff_toNat_le.1 hletter.2
    obtain rfl : c.toNat - 65 + 10 = n := Option.some.inj h
    omega
  · cases h

/-- Digits stand for less than their base to the power of their number. -/
theorem foldl_hexValue?_lt {cs : List Char} {ds : List Nat} (h : cs.mapM Json.hexValue? = some ds)
    (n : Nat) : ds.foldl (fun n d => n * 16 + d) n < (n + 1) * 16 ^ cs.length := by
  induction cs generalizing ds n with
  | nil =>
    obtain rfl : [] = ds := by simpa using h
    simp
  | cons c rest ih =>
    simp only [List.mapM_cons, Option.bind_eq_bind, Option.bind_eq_some_iff, Option.pure_def,
      Option.some.injEq] at h
    obtain ⟨d, hd, ds', hds, rfl⟩ := h
    have hdigit := hexValue?_lt hd
    calc ds'.foldl (fun n d => n * 16 + d) (n * 16 + d)
        < (n * 16 + d + 1) * 16 ^ rest.length := ih hds _
      _ ≤ ((n + 1) * 16) * 16 ^ rest.length := Nat.mul_le_mul_right _ (by omega)
      _ = (n + 1) * 16 ^ (rest.length + 1) := by rw [Nat.pow_succ, Nat.mul_assoc, Nat.mul_comm 16]

theorem eq_of_codeWidth? {e : Char} {width : Nat} (h : codeWidth? e = some width) :
    (e = 'U' ∧ width = 8) ∨ width ≤ 4 := by
  unfold codeWidth? at h
  split at h
  · cases h
    exact .inr (by decide)
  split at h
  · cases h
    exact .inr (by decide)
  split at h
  · rename_i hU
    cases h
    exact .inl ⟨hU, rfl⟩
  · cases h

/-- So many digits are refused because they are none, or for a code point that they can write. -/
theorem concludes_codePoint (width : Nat) (digits : List Char) :
    Concludes (fun fault => fault = .malformed ∨
      fault = .scalar (.scalar .codePoint) ∧ 0x10FFFF < 16 ^ width) (fun _ => True)
      (codePoint width digits) := by
  unfold codePoint
  split
  · exact .inl rfl
  · rename_i ds hds
    dsimp only
    split
    · exact .inl rfl
    · split
      · rename_i hbeyond
        refine .inr ⟨rfl, ?_⟩
        calc 0x10FFFF < ds.foldl (fun n d => n * 16 + d) 0 := hbeyond
          _ < (0 + 1) * 16 ^ (digits.take width).length := foldl_hexValue?_lt hds 0
          _ ≤ 16 ^ width := by
            rw [Nat.zero_add, Nat.one_mul]
            exact Nat.pow_le_pow_right (by decide) (List.length_take_le width digits)
      · trivial

/-- Only with eight digits can an escape be beyond the last code point. -/
theorem concludes_escape {e : Char} {width : Nat} {digits : List Char}
    (hwidth : codeWidth? e = some width) (hin : '\\' :: e :: digits <:+ text) :
    Concludes (ScanFault text) (fun _ => True) (codePoint width digits) := by
  cases hcode : codePoint width digits with
  | ok => trivial
  | error fault =>
    rcases (concludes_codePoint width digits).of_error hcode with rfl | ⟨rfl, hlt⟩
    · exact .malformed
    · rcases eq_of_codeWidth? hwidth with ⟨rfl, rfl⟩ | hle
      · exact .escape hin hcode
      · have hpow : 16 ^ width ≤ 16 ^ 4 := Nat.pow_le_pow_right (by decide) hle
        omega

theorem stops_quotedFrom (double : Bool) (fuel : Nat) (q : QuotedText) {c : Cursor}
    (h : c.In text) : Stops text (quotedFrom double fuel q c) := by
  induction fuel generalizing q c with
  | zero => exact .malformed
  | succ fuel ih =>
    simp only [quotedFrom]
    split
    · exact .malformed
    · rename_i d rest hrest
      split
      · -- blanks and line breaks
        split
        · exact ih _ (h.takeSpan _)
        · rename_i hbreak
          refine (stops_quotedBreaks _ [] ((h.takeSpan _).lineBreak? hbreak)).bind ?_
          rintro ⟨more, next⟩ hnext
          exact ih _ hnext
      · by_cases hquote : d = if double then '"' else '\''
        · -- the closing quote, or an apostrophe written twice
          rw [if_pos hquote]
          split
          · exact ih _ (h.forward 2)
          · exact h.advance
        · rw [if_neg hquote]
          split
          · -- an escape
            rename_i hescape
            split
            · exact .malformed
            · rename_i e digits
              split
              · exact ih _ (h.forward 2)
              · rename_i width _ hwidth
                have hin : '\\' :: e :: digits <:+ text := by
                  simp only [Bool.and_eq_true, decide_eq_true_eq] at hescape
                  rw [← hescape.2, ← hrest]
                  exact h
                refine (concludes_escape hwidth hin).bind fun n _ => ?_
                split <;> exact ih _ (h.forward _)
              · split
                · refine (stops_quotedBreaks _ [] (h.forward 2)).bind ?_
                  rintro ⟨more, next⟩ hnext
                  exact ih _ hnext
                · exact .malformed
          · exact ih _ h.advance

theorem stops_quotedScalar (double : Bool) {c : Cursor} (h : c.In text) :
    Stops text (quotedScalar double c) :=
  stops_quotedFrom double _ _ h.advance

theorem stops_increment? {c : Cursor} (h : c.In text) : Stops text (increment? c) := by
  unfold increment?
  split
  · split
    · exact .malformed
    · split
      · exact h.advance
      · exact h
  · exact h

theorem in_skipIndent (indent : Nat) {c : Cursor} (h : c.In text) : (skipIndent indent c).In text :=
  h.forward _

theorem in_blockBreaks (indent fuel : Nat) (breaks : List Char) {c : Cursor} (h : c.In text) :
    (blockBreaks indent fuel breaks c).2.In text := by
  induction fuel generalizing breaks c with
  | zero => exact h
  | succ fuel ih =>
    simp only [blockBreaks]
    split
    · exact in_skipIndent indent h
    · rename_i hbreak
      exact ih _ ((in_skipIndent indent h).lineBreak? hbreak)

theorem in_blockIndent (fuel : Nat) (breaks : List Char) (greatest : Nat) {c : Cursor}
    (h : c.In text) : (blockIndent fuel breaks greatest c).2.2.In text := by
  induction fuel generalizing breaks greatest c with
  | zero => exact h
  | succ fuel ih =>
    simp only [blockIndent]
    split
    · exact h.skipSpaces
    · rename_i hbreak
      exact ih _ _ (h.skipSpaces.lineBreak? hbreak)

theorem in_blockLines (folds : Bool) (indent fuel : Nat) {block : BlockText}
    (h : block.next.In text) : (blockLines folds indent fuel block).next.In text := by
  induction fuel generalizing block with
  | zero => exact h
  | succ fuel ih =>
    have hline := h.takeSpan (!isBreak ·)
    simp only [blockLines]
    split
    · split
      · rename_i lastBreak next hbreak
        have hnext := in_blockBreaks indent (next.rest.length + 1) [] (hline.lineBreak? hbreak)
        split
        · exact ih hnext
        · exact hnext
      · have hnext := in_blockBreaks indent
          ((block.next.takeSpan (!isBreak ·)).2.rest.length + 1) [] hline
        split
        · exact ih hnext
        · exact hnext
    · exact h

theorem concludes_headerEnd (chomping : Chomping) (increment : Option Nat) {c : Cursor}
    (h : c.In text) :
    Concludes (ScanFault text) (fun result => result.2.2.In text)
      (if endsItem c.peek then
        match c.skipSpaces.skipComment.lineBreak? with
        | some (_, c) => .ok (chomping, increment, c)
        | none =>
          if c.skipSpaces.skipComment.peek.isNone then
            .ok (chomping, increment, c.skipSpaces.skipComment)
          else .error .malformed
      else .error .malformed) := by
  have hcomment := h.skipSpaces.skipComment
  split
  · split
    · rename_i hbreak
      exact hcomment.lineBreak? hbreak
    · split
      · exact hcomment
      · exact .malformed
  · exact .malformed

theorem concludes_blockHeader {c : Cursor} (h : c.In text) :
    Concludes (ScanFault text) (fun result => result.2.2.In text) (blockHeader c) := by
  unfold blockHeader
  split
  · refine (stops_increment? h.advance).bind ?_
    rintro ⟨increment, next⟩ hnext
    exact concludes_headerEnd _ increment hnext
  · refine (stops_increment? h).bind ?_
    rintro ⟨increment, next⟩ hnext
    dsimp only
    split
    · exact concludes_headerEnd _ _ hnext.advance
    · exact concludes_headerEnd _ _ hnext

theorem stops_blockScalar (folds : Bool) (indent : Int) {c : Cursor} (h : c.In text) :
    Stops text (blockScalar folds indent c) := by
  unfold blockScalar
  refine (concludes_blockHeader h.advance).bind ?_
  rintro ⟨chomping, increment, next⟩ hnext
  refine in_blockLines folds _ _ ?_
  cases increment with
  | some n => exact in_blockBreaks _ _ [] hnext
  | none => exact in_blockIndent _ [] 0 hnext

/-! ## Tokens -/

theorem stops_anchorName {c : Cursor} (h : c.In text) : Stops text (anchorName c) := by
  simp only [anchorName]
  split
  · exact h.advance.takeSpan _
  · exact .malformed

theorem concludes_percentBytes (cs : List Char) :
    Concludes (ScanFault text) (fun _ => True) (percentBytes cs) := by
  fun_induction percentBytes cs with
  | case1 a b rest high low _ _ ih => exact ih.map fun _ _ => trivial
  | case2 => exact .malformed
  | case3 => exact .malformed
  | case4 => trivial

theorem stops_tagText (fuel : Nat) (read : List Char) {c : Cursor} (h : c.In text) :
    Stops text (tagText fuel read c) := by
  induction fuel generalizing read c with
  | zero => exact .malformed
  | succ fuel ih =>
    simp only [tagText]
    split
    · refine (concludes_percentBytes c.rest).bind fun bytes _ => ?_
      split
      · exact ih _ (h.forward _)
      · exact .malformed
    · split
      · exact ih _ h.advance
      · exact h
    · exact h

theorem stops_tagName {c : Cursor} (h : c.In text) : Stops text (tagName c) := by
  unfold tagName
  split
  · exact (stops_tagText _ [] h).map fun _ hnext => hnext
  · exact .malformed

theorem stops_tagHandle {c : Cursor} (h : c.In text) : Stops text (tagHandle c) := by
  have hname := h.advance.takeSpan isWordChar
  simp only [tagHandle]
  split
  · exact .malformed
  · split
    · exact h.advance
    · split
      · exact hname.advance
      · exact .malformed

/-- A token is none that stops the scanning, or it does so for one of its faults. -/
def Token.Sound (text : List Char) : Token → Prop
  | .stop fault => ScanFault text fault
  | _ => True

/-- What holds of the reading of a token. -/
abbrev Scans (text : List Char) : Except Fault (Token × Cursor) → Prop :=
  Concludes (ScanFault text) fun result => result.1.Sound text ∧ result.2.In text

/-- A result that hangs on a condition, without which the text is malformed. -/
theorem concludes_if {α : Type} {Q : α → Prop} {a : α} (h : Q a) (condition : Prop)
    [Decidable condition] :
    Concludes (ScanFault text) Q (if condition then .ok a else .error .malformed) := by
  split
  · exact h
  · exact .malformed

theorem scans_tagToken {c : Cursor} (h : c.In text) : Scans text (tagToken c) := by
  unfold tagToken
  split
  · refine (stops_tagName (h.forward 2)).bind ?_
    rintro ⟨name, next⟩ hnext
    dsimp only
    split
    · exact concludes_if ⟨trivial, hnext.advance⟩ _
    · exact .malformed
  · split
    · exact concludes_if ⟨trivial, h.advance⟩ _
    · dsimp only
      split
      · refine (stops_tagHandle h).bind ?_
        rintro ⟨handle, next⟩ hnext
        refine (stops_tagName hnext).bind ?_
        rintro ⟨name, behind⟩ hbehind
        exact concludes_if ⟨trivial, hbehind⟩ _
      · refine (stops_tagName h.advance).bind ?_
        rintro ⟨name, next⟩ hnext
        exact concludes_if ⟨trivial, hnext⟩ _

theorem stops_directiveNumber {c : Cursor} (h : c.In text) : Stops text (directiveNumber c) := by
  simp only [directiveNumber]
  split
  · exact .malformed
  · exact h.takeSpan _

theorem stops_directiveValue (name : List Char) {c : Cursor} (h : c.In text) :
    Stops text (directiveValue name c) := by
  unfold directiveValue
  split
  · refine (stops_directiveNumber h.skipSpaces).bind ?_
    rintro ⟨major, next⟩ hnext
    dsimp only
    split
    · exact .malformed
    · refine (stops_directiveNumber hnext.advance).bind ?_
      rintro ⟨_, behind⟩ hbehind
      exact concludes_if (a := (Directive.version major, behind)) hbehind _
  · split
    · refine (stops_tagHandle h.skipSpaces).bind ?_
      rintro ⟨handle, next⟩ hnext
      dsimp only
      split
      · exact .malformed
      · refine (stops_tagName hnext.skipSpaces).bind ?_
        rintro ⟨lead, behind⟩ hbehind
        exact concludes_if (a := (Directive.handle handle lead, behind)) hbehind _
    · exact h.skipSpan _

theorem scans_directiveToken {c : Cursor} (h : c.In text) : Scans text (directiveToken c) := by
  have hname := h.advance.takeSpan isWordChar
  unfold directiveToken
  dsimp only
  split
  · exact .malformed
  · refine (stops_directiveValue _ hname).bind ?_
    rintro ⟨directive, next⟩ hnext
    exact concludes_if ⟨trivial, hnext.skipSpaces.skipComment.advance⟩ _

/-! ## The scanner -/

/-- The scanner stands in the text, and the tokens so far are sound. -/
structure Scanner.Sound (text : List Char) (s : Scanner) : Prop where
  cursor : s.cursor.In text
  tokens : ∀ token ∈ s.tokens, token.Sound text

/-- What holds of a step of the scanner. -/
abbrev Goes (text : List Char) : Except Fault Scanner → Prop :=
  Concludes (ScanFault text) (Scanner.Sound text)

namespace Scanner

variable {s : Scanner} {t : Token}

theorem sound_start (text : List Char) : (start text).Sound text where
  cursor := Cursor.in_start text
  tokens := nofun

theorem Sound.add (h : s.Sound text) (htoken : t.Sound text) : (s.add t).Sound text where
  cursor := h.cursor
  tokens := List.forall_mem_cons.2 ⟨htoken, h.tokens⟩

theorem Sound.insert (h : s.Sound text) (tokensBefore : Nat) (htoken : t.Sound text) :
    (s.insert tokensBefore t).Sound text where
  cursor := h.cursor
  tokens u hu := by
    rcases List.mem_append.1 hu with hfront | hback
    · exact h.tokens u (List.mem_of_mem_take hfront)
    · rcases List.mem_cons.1 hback with rfl | hback
      · exact htoken
      · exact h.tokens u (List.mem_of_mem_drop hback)

theorem Sound.advance (h : s.Sound text) : s.advance.Sound text := ⟨h.cursor.advance, h.tokens⟩

theorem Sound.toNextToken (h : s.Sound text) (fuel : Nat) : (toNextToken fuel s).Sound text := by
  induction fuel generalizing s with
  | zero => exact h
  | succ fuel ih =>
    have hcomment := h.cursor.skipSpaces.skipComment
    simp only [Scanner.toNextToken]
    split
    · rename_i hbreak
      exact ih ⟨hcomment.lineBreak? hbreak, h.tokens⟩
    · exact ⟨hcomment, h.tokens⟩

theorem Sound.skipMark (h : s.Sound text) : s.skipMark.Sound text := by
  unfold Scanner.skipMark
  split
  · exact h.advance
  · exact h

theorem Sound.dropStale (h : s.Sound text) : Goes text s.dropStale := by
  unfold Scanner.dropStale
  split
  · exact .malformed
  · exact ⟨h.cursor, h.tokens⟩

theorem Sound.dropKey (h : s.Sound text) : Goes text s.dropKey := by
  unfold Scanner.dropKey
  split
  · exact .malformed
  · exact ⟨h.cursor, h.tokens⟩

theorem Sound.saveKey (h : s.Sound text) : Goes text s.saveKey := by
  unfold Scanner.saveKey
  split
  · exact h.dropKey.bind fun _ h => ⟨h.cursor, h.tokens⟩
  · exact h

theorem Sound.closeBlocks (h : s.Sound text) (column : Int) (outer : List Int) :
    (closeBlocks column outer s).Sound text := by
  induction outer generalizing s with
  | nil => exact h
  | cons indent rest ih =>
    unfold Scanner.closeBlocks
    split
    · exact ih ⟨h.cursor, (h.add (t := .blockEnd) trivial).tokens⟩
    · exact h

theorem Sound.unwind (h : s.Sound text) (column : Int) : (s.unwind column).Sound text := by
  unfold Scanner.unwind
  split
  · exact h.closeBlocks column _
  · exact h

theorem Sound.openBlock (h : s.Sound text) (column tokensBefore : Nat) (htoken : t.Sound text) :
    (s.openBlock column tokensBefore t).Sound text := by
  unfold Scanner.openBlock
  split
  · exact ⟨h.cursor, (h.insert tokensBefore htoken).tokens⟩
  · exact h

theorem Sound.closeAll (h : s.Sound text) : Goes text s.closeAll :=
  (h.unwind (-1)).dropKey.bind fun _ h => ⟨h.cursor, h.tokens⟩

theorem Sound.finish (h : s.Sound text) : Goes text s.finish :=
  h.closeAll.bind fun _ h => Sound.add ⟨h.cursor, h.tokens⟩ trivial

theorem Sound.directive (h : s.Sound text) : Goes text s.directive := by
  refine h.closeAll.bind fun s h => (scans_directiveToken h.cursor).bind ?_
  rintro ⟨token, next⟩ ⟨htoken, hnext⟩
  exact Sound.add ⟨hnext, h.tokens⟩ htoken

theorem Sound.separator (h : s.Sound text) (htoken : t.Sound text) :
    Goes text (s.separator t) :=
  h.closeAll.bind fun _ h => Sound.add ⟨h.cursor.forward 3, h.tokens⟩ htoken

theorem Sound.openBracket (h : s.Sound text) (htoken : t.Sound text) :
    Goes text (s.openBracket t) :=
  h.saveKey.bind fun _ h => Sound.add (Sound.advance ⟨h.cursor, h.tokens⟩) htoken

theorem Sound.closeBracket (h : s.Sound text) (htoken : t.Sound text) :
    Goes text (s.closeBracket t) := by
  refine h.dropKey.bind fun s h => ?_
  dsimp only
  split
  · exact .malformed
  · exact Sound.add (Sound.advance ⟨h.cursor, h.tokens⟩) htoken

theorem Sound.flowEntry (h : s.Sound text) : Goes text s.flowEntry :=
  h.dropKey.bind fun _ h => Sound.add (Sound.advance ⟨h.cursor, h.tokens⟩) trivial

theorem concludes_requireKeyAllowed (s : Scanner) :
    Concludes (ScanFault text) (fun _ => True) s.requireKeyAllowed := by
  unfold Scanner.requireKeyAllowed
  split
  · exact .malformed
  · trivial

/-- A token that opens a block at its place, unless one is open there. -/
theorem Sound.blockToken (h : s.Sound text) (opening : Token) (hopening : opening.Sound text)
    (htoken : t.Sound text) (keyAllowed : Scanner → Bool) :
    Goes text (do
      s.requireKeyAllowed
      let s ← (s.openBlock s.cursor.column s.tokens.length opening).dropKey
      return { s with keyAllowed := keyAllowed s }.advance.add t) :=
  (concludes_requireKeyAllowed s).bind fun _ _ =>
    (h.openBlock _ _ hopening).dropKey.bind fun _ h =>
      Sound.add (Sound.advance ⟨h.cursor, h.tokens⟩) htoken

theorem Sound.blockEntry (h : s.Sound text) : Goes text s.blockEntry :=
  h.blockToken (t := .blockEntry) .blockSequenceStart trivial trivial fun _ => true

theorem Sound.key (h : s.Sound text) : Goes text s.key :=
  h.blockToken (t := .key) .blockMappingStart trivial trivial fun s => s.flow = 0

theorem Sound.value (h : s.Sound text) : Goes text s.value := by
  unfold Scanner.value
  split
  · rename_i pending _
    have hkey := Sound.insert (s := { s with keys := s.keys.filter (·.1 ≠ s.flow) })
      ⟨h.cursor, h.tokens⟩ pending.tokensBefore (t := .key) trivial
    have hblock := hkey.openBlock pending.column pending.tokensBefore
      (t := .blockMappingStart) trivial
    exact Sound.add (Sound.advance ⟨hblock.cursor, hblock.tokens⟩) trivial
  · exact h.blockToken (t := .value) .blockMappingStart trivial trivial fun s => s.flow = 0

theorem Sound.keyLike (h : s.Sound text) {read : Cursor → Except Fault (Token × Cursor)}
    (hread : ∀ c : Cursor, c.In text → Scans text (read c)) : Goes text (s.keyLike read) := by
  refine h.saveKey.bind fun s h => (hread _ h.cursor).bind ?_
  rintro ⟨token, next⟩ ⟨htoken, hnext⟩
  exact Sound.add ⟨hnext, h.tokens⟩ htoken

theorem Sound.plain (h : s.Sound text) : Goes text s.plain :=
  h.saveKey.bind fun _ h => Sound.add ⟨in_plainScalar _ _ h.cursor, h.tokens⟩ trivial

theorem Sound.block (h : s.Sound text) (folds : Bool) : Goes text (s.block folds) := by
  refine h.dropKey.bind fun s h => (stops_blockScalar folds s.indent h.cursor).bind ?_
  rintro ⟨_, next⟩ hnext
  exact Sound.add ⟨hnext, h.tokens⟩ trivial

theorem goes_if {condition : Prop} [Decidable condition] {r r' : Except Fault Scanner}
    (h : Goes text r) (h' : Goes text r') : Goes text (if condition then r else r') := by
  split
  · exact h
  · exact h'

theorem Sound.next (h : s.Sound text) (c : Char) : Goes text (s.token c) := by
  have named : ∀ (make : String → Token), (∀ name, (make name).Sound text) →
      ∀ start : Cursor, start.In text →
        Scans text ((anchorName start).map fun result => (make result.1, result.2)) :=
    fun make hmake start hstart => (stops_anchorName hstart).map fun result hnext =>
      ⟨hmake result.1, hnext⟩
  have quoted : ∀ (double : Bool) (start : Cursor), start.In text →
      Scans text ((quotedScalar double start).map fun result => (.quoted result.1, result.2)) :=
    fun double start hstart => (stops_quotedScalar double hstart).map fun _ hnext =>
      ⟨trivial, hnext⟩
  unfold Scanner.token
  -- one case for each branch, in their order
  refine goes_if h.directive ?_
  refine goes_if (h.separator trivial) (goes_if (h.separator trivial) ?_)
  refine goes_if (h.openBracket trivial) (goes_if (h.openBracket trivial) ?_)
  refine goes_if (h.closeBracket trivial) (goes_if (h.closeBracket trivial) ?_)
  refine goes_if h.flowEntry (goes_if h.blockEntry (goes_if h.key (goes_if h.value ?_)))
  refine goes_if (h.keyLike (named .alias fun _ => trivial)) ?_
  refine goes_if (h.keyLike (named .anchor fun _ => trivial)) ?_
  refine goes_if (h.keyLike fun _ => scans_tagToken) ?_
  refine goes_if (h.block false) (goes_if (h.block true) ?_)
  exact goes_if (h.keyLike (quoted _)) (goes_if h.plain .malformed)

/-- One more token leaves the scanner in its text and its tokens sound, or the text is refused. -/
theorem Sound.step (h : s.Sound text) :
    Concludes (ScanFault text) (fun result => result.2.Sound text) s.step := by
  refine (h.skipMark.toNextToken _).dropStale.bind fun s h => ?_
  have hunwound := h.unwind s.cursor.column
  dsimp only
  split
  · exact hunwound.finish.bind fun _ h => h
  · exact (hunwound.next _).bind fun _ h => h

theorem Sound.run (h : s.Sound text) (fuel : Nat) : ∀ token ∈ run fuel s, token.Sound text := by
  induction fuel generalizing s with
  | zero => exact fun token ht => h.tokens token (List.mem_reverse.1 ht)
  | succ fuel ih =>
    have hstep := h.step
    unfold Scanner.run
    split
    · rename_i fault hfault
      have hstop := h.add (t := .stop fault) (hstep.of_error hfault)
      exact fun token ht => hstop.tokens token (List.mem_reverse.1 ht)
    · rename_i last hlast
      exact fun token ht => (hstep.of_ok hlast).tokens token (List.mem_reverse.1 ht)
    · rename_i next hnext
      exact ih (hstep.of_ok hnext)

end Scanner

theorem sound_scan (text : List Char) : ∀ token ∈ scan text, token.Sound text :=
  (Scanner.sound_start text).run _

end Yaml

end ShellTemplate
