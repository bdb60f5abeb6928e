import ShellTemplate.Error
import ShellTemplate.Text.Blank
import ShellTemplate.Text.Digit

/-!
# Reading the short form of templates

A template is read word by word. Each reader takes the text that is still to be read and returns
what it read with the rest, or a fault with its site — the text from the faulty place on — and the
rest at which reading stopped. A position in the template is a length: that of the whole template
less that of the rest.

The words are

* a placeholder `{name}`, with `!` for verbatim and `*` for a list before the name or position;
* a text between apostrophes, or between double quotes with `\"` and `\\` as escapes;
* a bare word, in which a doubled brace stands for a brace: a number where it looks like one, and an
  identifier otherwise.

`word_rest_lt` says that reading a word always gets on, which is why reading a template ends.
-/

namespace ShellTemplate.Template

open Text Number

/-- Why a reader stopped. -/
inductive Fault where
  /-- The text breaks a rule, at a site. -/
  | broken (fault : SyntaxFault) (site : List Char)
  /-- There is nothing left to read. -/
  | atEnd
  /-- A position is written with too many digits. -/
  | longPosition (width : Nat)
  /-- A bare number is outside the limits of numbers. -/
  | badNumber (text : String)

/-- The outcome of a reader: a value and the rest, or a fault and the rest. -/
inductive Reading (α : Type) where
  | done (value : α) (rest : List Char)
  | failed (fault : Fault) (rest : List Char)

/-- What is left to read after a reading. -/
def Reading.rest {α : Type} : Reading α → List Char
  | done _ rest | failed _ rest => rest

/-- A reading with another value. -/
def Reading.map {α β : Type} (f : α → β) : Reading α → Reading β
  | done value rest => done (f value) rest
  | failed fault rest => failed fault rest

theorem Reading.rest_map {α β : Type} (f : α → β) (r : Reading α) : (r.map f).rest = r.rest := by
  cases r <;> rfl

/-- The text from its first character that is not blank on. -/
def skipBlanks (cs : List Char) : List Char := cs.dropWhile isBlank

/-- Whether a word ends here: at a blank or at the end of the text. -/
def atWordEnd : List Char → Bool
  | [] => true
  | c :: _ => isBlank c

/-- The characters of a quoted text up to the closing quote, and the rest behind it; `none` where
the quote is not closed. Only between double quotes does a backslash escape a double quote or a
backslash. The characters read so far are given in reverse. -/
def closeQuote (quote : Char) (read : List Char) : List Char → Option (List Char × List Char)
  | [] => none
  | c :: rest =>
    if c = quote then some (read.reverse, rest)
    else if quote = '"' ∧ c = '\\' then
      match rest with
      | [] => none
      | d :: rest' =>
        if d = '"' ∨ d = '\\' then closeQuote quote (d :: read) rest'
        else closeQuote quote (c :: read) (d :: rest')
    else closeQuote quote (c :: read) rest

/-- Reads a quoted text; its first character is the quote, whatever it is. -/
def quoted : List Char → Reading (List Char)
  | [] => .failed .atEnd []
  | quote :: rest =>
    match closeQuote quote [] rest with
    | some (text, rest') => .done text rest'
    | none => .failed (.broken .unterminatedQuote (quote :: rest)) []

/-- Reads a bare word; the characters read so far are given in reverse. -/
def bareFrom (read : List Char) : List Char → Reading (List Char)
  | [] => .done read.reverse []
  | c :: rest =>
    if isBlank c then .done read.reverse (c :: rest)
    else if c = '{' ∨ c = '}' then
      match rest with
      | [] => .failed (.broken (.looseBrace c) [c]) [c]
      | d :: rest' =>
        if d = c then bareFrom (c :: read) rest'
        else .failed (.broken (.looseBrace c) (c :: d :: rest')) (c :: d :: rest')
    else if c = '\'' ∨ c = '"' then .failed (.broken .quoteInWord (c :: rest)) (c :: rest)
    else bareFrom (c :: read) rest
termination_by cs => cs.length

/-- Reads a bare word up to its end. -/
def bare (cs : List Char) : Reading (List Char) := bareFrom [] cs

/-- An optional marker: whether it is there, and the rest. -/
def marker (mark : Char) : List Char → Bool × List Char
  | [] => (false, [])
  | c :: rest => if c = mark then (true, rest) else (false, c :: rest)

/-- The longest name or run of digits at the front, and the rest. -/
def refText : List Char → List Char × List Char
  | [] => ([], [])
  | c :: rest =>
    if isNameStart c then (c :: rest.takeWhile isNameChar, rest.dropWhile isNameChar)
    else if c.isDigit then (c :: rest.takeWhile Char.isDigit, rest.dropWhile Char.isDigit)
    else ([], c :: rest)

/-- A placeholder without its opening brace: whether it is verbatim, whether it takes a list, the
text of its reference, and the rest behind its closing brace. -/
def placeholder? (cs : List Char) : Option (Bool × Bool × List Char × List Char) :=
  let (verbatim, cs) := marker '!' cs
  let (list, cs) := marker '*' cs
  match refText cs with
  | ([], _) => none
  | (name, '}' :: rest) => some (verbatim, list, name, rest)
  | (_, _) => none

/-- The reference that a text of letters or digits is. -/
def refOfText (name : List Char) : Except Fault Ref :=
  if name.all Char.isDigit then
    if maxDigits < name.length then .error (.longPosition name.length)
    else .ok (.position (ofDigits name))
  else .ok (.name (String.ofList name))

/-- Whether a bare word is a number: an optional minus, digits, and an optional fraction. -/
def isNumber (word : List Char) : Bool :=
  let unsigned := match word with
    | '-' :: rest => rest
    | rest => rest
  let whole := unsigned.takeWhile Char.isDigit
  !whole.isEmpty && match unsigned.dropWhile Char.isDigit with
    | [] => true
    | '.' :: fraction => !fraction.isEmpty && fraction.all Char.isDigit
    | _ => false

/-- The atom of a bare word. -/
def atomOfWord (word : List Char) : Except Fault Atom :=
  if isNumber word then
    match Atom.number? (String.ofList word) with
    | some a => .ok a
    | none => .error (.badNumber (String.ofList word))
  else .ok (.identifier (String.ofList word))

/-- Reads a placeholder behind its opening brace; `site` is the text from the brace on. -/
def placeholderWord (site cs : List Char) : Reading Part :=
  match placeholder? cs with
  | none => .failed (.broken .malformedPlaceholder site) site
  | some (verbatim, list, name, rest) =>
    if atWordEnd rest then
      match refOfText name with
      | .ok ref => .done (.placeholder ⟨verbatim, list, ref⟩) rest
      | .error fault => .failed fault rest
    else .failed (.broken .placeholderNotAlone site) rest

/-- Reads a quoted word. -/
def quotedWord (cs : List Char) : Reading Part :=
  match quoted cs with
  | .failed fault rest => .failed fault rest
  | .done text rest =>
    if atWordEnd rest then .done (.literal (.text (String.ofList text))) rest
    else .failed (.broken .quoteNotAlone cs) rest

/-- Reads a bare word as a literal. -/
def bareWord (cs : List Char) : Reading Part :=
  match bare cs with
  | .failed fault rest => .failed fault rest
  | .done text rest =>
    match atomOfWord text with
    | .ok a => .done (.literal a) rest
    | .error fault => .failed fault rest

/-- Whether a text starts with one brace only. -/
def opensPlaceholder : List Char → Bool
  | ['{'] => true
  | '{' :: c :: _ => c != '{'
  | _ => false

/-- Reads one word. -/
def word (cs : List Char) : Reading Part :=
  match cs with
  | [] => .failed .atEnd []
  | c :: rest =>
    if opensPlaceholder cs then placeholderWord cs rest
    else if c = '\'' ∨ c = '"' then quotedWord cs
    else bareWord cs

theorem length_skipBlanks_le (cs : List Char) : (skipBlanks cs).length ≤ cs.length :=
  (List.dropWhile_suffix isBlank).length_le

theorem not_isBlank_of_skipBlanks {cs rest : List Char} {c : Char} (h : skipBlanks cs = c :: rest) :
    isBlank c = false := by
  have := List.head?_dropWhile_not isBlank cs
  rw [show cs.dropWhile isBlank = c :: rest from h] at this
  simpa using this

/-- A closed quotation ends at its closing quote, before the rest. -/
theorem closeQuote_rest_lt {quote : Char} {read cs text rest : List Char}
    (h : closeQuote quote read cs = some (text, rest)) : rest.length < cs.length := by
  fun_induction closeQuote quote read cs with
  | case1 => cases h
  | case2 => simp_all
  | case3 => cases h
  | case4 _ _ _ _ _ _ _ ih | case5 _ _ _ _ _ _ _ ih | case6 _ _ _ _ _ ih =>
    have := ih h
    simp only [List.length_cons] at this ⊢
    omega

theorem quoted_rest_lt {cs text rest : List Char} (h : quoted cs = .done text rest) :
    rest.length < cs.length := by
  cases cs with
  | nil => simp [quoted] at h
  | cons quote tail =>
    simp only [quoted] at h
    split at h
    · next closed =>
      cases h
      have := closeQuote_rest_lt closed
      simp only [List.length_cons]
      omega
    · cases h

/-- A bare word never reads past the end of the text. -/
theorem bareFrom_rest_le {read cs text rest : List Char} (h : bareFrom read cs = .done text rest) :
    rest.length ≤ cs.length := by
  fun_induction bareFrom read cs with
  | case1 => simp_all
  | case2 => simp_all
  | case3 => cases h
  | case4 _ _ _ _ _ ih | case7 _ _ _ _ _ _ ih =>
    have := ih h
    simp only [List.length_cons] at this ⊢
    omega
  | case5 => cases h
  | case6 => cases h

/-- A bare word that starts before a blank is not empty. -/
theorem bare_rest_lt {c : Char} {cs text rest : List Char} (solid : isBlank c = false)
    (h : bare (c :: cs) = .done text rest) : rest.length < (c :: cs).length := by
  have step : ∀ {read tail}, bareFrom read tail = .done text rest → tail.length ≤ cs.length →
      rest.length < (c :: cs).length := fun done short => by
    have := bareFrom_rest_le done
    simp only [List.length_cons]
    omega
  rw [bare, bareFrom.eq_def] at h
  simp only [solid, Bool.false_eq_true, ↓reduceIte] at h
  split at h
  · split at h
    · cases h
    · split at h
      · exact step h (by simp)
      · cases h
  · split at h
    · cases h
    · exact step h (Nat.le_refl _)

theorem length_marker_le (mark : Char) (cs : List Char) :
    (marker mark cs).2.length ≤ cs.length := by
  cases cs with
  | nil => simp [marker]
  | cons c rest => simp only [marker]; split <;> simp

theorem length_refText_le (cs : List Char) : (refText cs).2.length ≤ cs.length := by
  cases cs with
  | nil => simp [refText]
  | cons c rest =>
    have skip (p : Char → Bool) : (rest.dropWhile p).length ≤ rest.length + 1 :=
      Nat.le_succ_of_le (List.dropWhile_suffix p).length_le
    simp only [refText]
    split
    · simpa using skip isNameChar
    · split
      · simpa using skip Char.isDigit
      · simp

/-- A placeholder ends at its closing brace, before the rest. -/
theorem placeholder_rest_lt {cs name rest : List Char} {verbatim list : Bool}
    (h : placeholder? cs = some (verbatim, list, name, rest)) : rest.length < cs.length := by
  simp only [placeholder?] at h
  split at h
  · cases h
  · next found =>
    cases h
    have ref := length_refText_le (marker '*' (marker '!' cs).2).2
    have star := length_marker_le '*' (marker '!' cs).2
    have bang := length_marker_le '!' cs
    rw [found] at ref
    simp only [List.length_cons] at ref
    omega
  · cases h

/-- Reading a word gets on, unless it starts at a blank. -/
theorem word_rest_lt {c : Char} {cs rest : List Char} {part : Part} (solid : isBlank c = false)
    (h : word (c :: cs) = .done part rest) : rest.length < (c :: cs).length := by
  simp only [word] at h
  split at h
  · simp only [placeholderWord] at h
    split at h
    · cases h
    · next found =>
      have := placeholder_rest_lt found
      split at h
      · split at h
        · cases h
          simp only [List.length_cons]
          omega
        · cases h
      · cases h
  · split at h
    · simp only [quotedWord] at h
      split at h
      · cases h
      · next found =>
        have := quoted_rest_lt found
        split at h
        · cases h
          exact this
        · cases h
    · simp only [bareWord] at h
      split at h
      · cases h
      · next found =>
        have := bare_rest_lt solid found
        split at h
        · cases h
          exact this
        · cases h

/-- Reads words up to the end of the text; the parts read so far are given in reverse. -/
def readParts (read : List Part) (cs : List Char) : Reading (List Part) :=
  match _skipped : skipBlanks cs with
  | [] => .done read.reverse []
  | c :: rest =>
    match _found : word (c :: rest) with
    | .failed fault rest' => .failed fault rest'
    | .done part rest' => readParts (part :: read) rest'
termination_by cs.length
decreasing_by
  have := word_rest_lt (not_isBlank_of_skipBlanks _skipped) _found
  have := length_skipBlanks_le cs
  rw [_skipped] at this
  omega

/-- The error of a fault in a template. The column of a site is the length of the text before it. -/
def Fault.toError (template : List Char) : Fault → Error
  | broken fault site =>
    .templateFault fault (String.ofList template) (some (template.length - site.length))
  | atEnd => .indexOutOfRange "str"
  | longPosition width => .tooManyDigits (some width)
  | badNumber text => .badAtom (.str text) none none

/-- The parts of a template in short form. -/
def parse (template : String) : Except Error (List Part) :=
  let cs := template.toList
  match readParts [] cs with
  | .done parts _ => .ok parts
  | .failed fault _ => .error (fault.toError cs)

/-- The parts of a template given as a value, which has to be a text. -/
def parseValue : Value → Except Error (List Part)
  | .str s => parse s
  | v => .error (.notText v.typeName)

end ShellTemplate.Template
