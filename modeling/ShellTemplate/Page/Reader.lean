import ShellTemplate.Page.Basic
import ShellTemplate.Json.Text
import ShellTemplate.Text.Newline
import ShellTemplate.Text.Blank
import ShellTemplate.Text.Digit

/-!
# Reading pages

An expression stands between double braces. It is cut into tokens first; the tokens then have one of
a few forms:

* a name, a text between quotes, or `sh("template", name=value, …)`,
* followed by any number of `| shquote` or `| shquote("style")`.

All else in a page is plain text. A line feed at the very end of a page is dropped.

* `readPage` — the page of a text.
-/

namespace ShellTemplate

open Text Shell

/-- A token of an expression. -/
inductive Token where
  | name (text : String)
  | text (content : String)
  | symbol (c : Char)
deriving DecidableEq, Repr

/-! ## Texts between quotes -/

/-- What stands between quotes, escapes and all, and the rest behind the closing quote. -/
def quotedSpan (quote : Char) : List Char → Option (List Char × List Char)
  | [] => none
  | '\\' :: c :: rest => (quotedSpan quote rest).map fun (span, rest) => ('\\' :: c :: span, rest)
  | c :: rest =>
    if c = quote then some ([], rest)
    else (quotedSpan quote rest).map fun (span, rest) => (c :: span, rest)

/-- A closing quote is always taken up. -/
theorem quotedSpan_rest_lt {quote : Char} {cs span rest : List Char}
    (h : quotedSpan quote cs = some (span, rest)) : rest.length < cs.length := by
  fun_induction quotedSpan quote cs generalizing span with
  | case1 => cases h
  | case2 c tail ih =>
    simp only [Option.map_eq_some_iff, Prod.mk.injEq, Prod.exists] at h
    obtain ⟨_, _, found, _, rfl⟩ := h
    have := ih found
    simp only [List.length_cons]
    omega
  | case3 tail => cases h; simp
  | case4 c tail _ _ ih =>
    simp only [Option.map_eq_some_iff, Prod.mk.injEq, Prod.exists] at h
    obtain ⟨_, _, found, _, rfl⟩ := h
    have := ih found
    simp only [List.length_cons]
    omega

/-- A character in ASCII: one outside it is written by its code point. -/
def asciiForm (c : Char) : List Char :=
  if c.toNat < 0x80 then [c]
  else if c.toNat < 0x100 then '\\' :: 'x' :: hex 2 c.toNat
  else if c.toNat < 0x10000 then '\\' :: 'u' :: hex 4 c.toNat
  else '\\' :: 'U' :: hex 8 c.toNat

/-- The character that hexadecimal digits denote. -/
def hexChar? (ds : List Char) : Option Char := do
  let values ← ds.mapM Json.hexValue?
  let n := values.foldl (fun n d => n * 16 + d) 0
  if n.isValidChar then some (Char.ofNat n) else none

/-- The value of an octal digit. -/
def octalValue? (c : Char) : Option Nat :=
  if '0' ≤ c ∧ c ≤ '7' then some (c.toNat - '0'.toNat) else none

/-- The character that an escape of one letter stands for. -/
def letterEscape? (c : Char) : Option Char :=
  if c = '\\' ∨ c = '\'' ∨ c = '"' then some c
  else if c = 'a' then some (Char.ofNat 0x07)
  else if c = 'b' then some (Char.ofNat 0x08)
  else if c = 't' then some '\t'
  else if c = 'n' then some '\n'
  else if c = 'v' then some (Char.ofNat 0x0B)
  else if c = 'f' then some (Char.ofNat 0x0C)
  else if c = 'r' then some '\r'
  else none

/-- What a text between quotes stands for. Up to three octal digits, or two, four or eight
hexadecimal ones behind a letter, denote a character; an escaped line feed is dropped; a backslash
that escapes nothing stands for itself. -/
def unescape : List Char → Option (List Char)
  | [] => some []
  | '\\' :: 'x' :: a :: b :: rest => do
    let c ← hexChar? [a, b]
    return c :: (← unescape rest)
  | '\\' :: 'u' :: a :: b :: c :: d :: rest => do
    let c ← hexChar? [a, b, c, d]
    return c :: (← unescape rest)
  | '\\' :: 'U' :: a :: b :: c :: d :: e :: f :: g :: h :: rest => do
    let c ← hexChar? [a, b, c, d, e, f, g, h]
    return c :: (← unescape rest)
  | '\\' :: '\n' :: rest => unescape rest
  | '\\' :: c :: rest =>
    match octalValue? c with
    | some first =>
      match rest with
      | [] => some [Char.ofNat first]
      | d :: rest' =>
        match octalValue? d with
        | none => (unescape (d :: rest')).map (Char.ofNat first :: ·)
        | some second =>
          match rest' with
          | [] => some [Char.ofNat (first * 8 + second)]
          | e :: rest'' =>
            match octalValue? e with
            | none => (unescape (e :: rest'')).map (Char.ofNat (first * 8 + second) :: ·)
            | some third =>
              (unescape rest'').map (Char.ofNat ((first * 8 + second) * 8 + third) :: ·)
    | none =>
      if c = 'x' ∨ c = 'u' ∨ c = 'U' ∨ c = 'N' then none
      else
        match letterEscape? c with
        | some escaped => (unescape rest).map (escaped :: ·)
        | none => (unescape rest).map fun text => '\\' :: c :: text
  | c :: rest => (unescape rest).map (c :: ·)

/-! ## Tokens -/

/-- The tokens up to the closing braces, and the rest behind them. The tokens read so far are given
in reverse. -/
def tokens (read : List Token) (cs : List Char) : Option (List Token × List Char) :=
  match cs with
  | [] => none
  | '}' :: '}' :: rest => some (read.reverse, rest)
  | c :: rest =>
    if isBlank c then tokens read rest
    else if isNameStart c then
      tokens (.name (String.ofList (c :: rest.takeWhile isNameChar)) :: read)
        (rest.dropWhile isNameChar)
    else if c = '\'' ∨ c = '"' then
      match _found : quotedSpan c rest with
      | none => none
      | some (span, rest') =>
        match unescape (span.flatMap asciiForm) with
        | some text => tokens (.text (String.ofList text) :: read) rest'
        | none => none
    else tokens (.symbol c :: read) rest
termination_by cs.length
decreasing_by
  · simp
  · have := (List.dropWhile_sublist isNameChar (l := rest)).length_le
    simp only [List.length_cons]
    omega
  · have := quotedSpan_rest_lt _found
    simp only [List.length_cons]
    omega
  · simp

/-- An expression is taken up with its closing braces. -/
theorem tokens_rest_lt {read found : List Token} {cs rest : List Char}
    (h : tokens read cs = some (found, rest)) : rest.length < cs.length := by
  fun_induction tokens read cs with
  | case1 => cases h
  | case2 => cases h; simp only [List.length_cons]; omega
  | case3 _ _ _ _ _ ih => have := ih h; simp only [List.length_cons]; omega
  | case4 _ c tail _ _ _ ih =>
    have := ih h
    have := (List.dropWhile_sublist isNameChar (l := tail)).length_le
    simp only [List.length_cons]
    omega
  | case5 => cases h
  | case6 _ c tail _ _ _ _ span tail' found _ _ ih =>
    have := ih h
    have := quotedSpan_rest_lt found
    simp only [List.length_cons]
    omega
  | case7 => cases h
  | case8 _ _ _ _ _ _ _ ih => have := ih h; simp only [List.length_cons]; omega

/-! ## Expressions -/

/-- What a name stands for: one of the three constants, or a variable. -/
def operandOfName (name : String) : Operand :=
  if name = "true" ∨ name = "True" then .constant (.bool true)
  else if name = "false" ∨ name = "False" then .constant (.bool false)
  else if name = "none" ∨ name = "None" then .constant .null
  else .named name

/-- The quotings that follow an origin. -/
def stylesOf : List Token → Option (List Style)
  | [] => some []
  | .symbol '|' :: .name "shquote" :: .symbol '(' :: .text style :: .symbol ')' :: rest =>
    (stylesOf rest).map (Style.ofNameOrAlways style :: ·)
  | .symbol '|' :: .name "shquote" :: rest => (stylesOf rest).map (.minimal :: ·)
  | _ => none

/-- The named values of a template up to the closing bracket, and the tokens behind it. -/
def namedValues : List Token → Option (List (String × Operand) × List Token)
  | .symbol ')' :: rest => some ([], rest)
  | .symbol ',' :: .name name :: .symbol '=' :: .name value :: rest =>
    (namedValues rest).map fun (values, rest) => ((name, operandOfName value) :: values, rest)
  | .symbol ',' :: .name name :: .symbol '=' :: .text value :: rest =>
    (namedValues rest).map fun (values, rest) => ((name, .constant (.str value)) :: values, rest)
  | _ => none

/-- The expression of some tokens. -/
def expressionOf : List Token → Option Expression
  | .name "sh" :: .symbol '(' :: .text template :: rest => do
    let (values, rest) ← namedValues rest
    return ⟨.command template values, ← stylesOf rest⟩
  | .name name :: rest => (stylesOf rest).map fun styles => ⟨.operand (operandOfName name), styles⟩
  | .text content :: rest =>
    (stylesOf rest).map fun styles => ⟨.operand (.constant (.str content)), styles⟩
  | _ => none

/-! ## Pages -/

/-- The pieces of a text. The plain text read so far is given in reverse. -/
def piecesFrom (plain : List Char) (cs : List Char) : Option (List Piece) :=
  match cs with
  | [] => some [.text plain.reverse]
  | '{' :: '{' :: rest =>
    match _found : tokens [] rest with
    | none => none
    | some (ts, rest') => do
      let e ← expressionOf ts
      let pieces ← piecesFrom [] rest'
      return .text plain.reverse :: .expression e :: pieces
  | '{' :: '%' :: _ => none
  | '{' :: '#' :: _ => none
  | c :: rest => piecesFrom (c :: plain) rest
termination_by cs.length
decreasing_by
  · have := tokens_rest_lt _found
    simp only [List.length_cons]
    omega
  · simp

/-- The page of a text. -/
def readPage (escaped : Bool) (source : String) : Except Error Page :=
  match piecesFrom [] (dropLastNewline (unifyNewlines source.toList)) with
  | some pieces => .ok ⟨pieces, escaped⟩
  | none => .error (.malformedPage "malformed page")

end ShellTemplate
