import ShellTemplate.Config.Runnable
import ShellTemplate.Proofs.YamlValues

/-!
# Configuration files that cannot be read

Whatever stands at the path of a configuration, loading it gives a configuration, an error that
names the path, or an error of another kind: the path is a directory, or one of the packages raises
an error where it should refuse what it was given. The other kinds belong to no family of template
errors, so a handler for these does not catch them.

* `Packages.Documented` — what is known of the packages; `documented_runnable`.
* `Config.Reported` — a configuration, or an error that names the path.
* `Config.Unreadable` — what brings about an error of another kind, with the error.
* `documentOf_raised` — what the packages that run raise: bytes that are no text, and a scalar that
  has the form of some type and no value of it.
* `Config.accepted_of_load` — every scalar in a file that they give a configuration for has a value.

Principal result: `Config.load_reported_iff`.
-/

set_option autoImplicit false

namespace ShellTemplate

/-! ## Packages -/

/-- What is known of the packages: a document is decoded while it is read, and the errors that they
raise are none of templates. -/
structure Packages.Documented (packages : Packages) : Prop where
  decodes : ∀ content v, packages.document content = .ok v →
    ∃ text, Text.decode content = .ok text
  document_foreign : ∀ content e, packages.document content = .error (.raised e) →
    ErrorFamily.template ∉ e.families
  config_foreign : ∀ v e, packages.config v = .error (.raised e) →
    ErrorFamily.template ∉ e.families

theorem template_notMem_families {e : Error} (h : e.isScalar = true) :
    ErrorFamily.template ∉ e.families := by
  cases e with
  | scalar fault => cases fault <;> simp [Error.families]
  | tooManyDigits => simp [Error.families]
  | _ => cases h

/-- **What the packages that run raise** where they should refuse a document. -/
theorem documentOf_raised {content : List UInt8} {e : Error}
    (h : documentOf content = .error (.raised e)) :
    (∃ fault, Text.decode content = .error fault ∧ e = .notUtf8 fault) ∨
      ∃ text, Text.decode content = .ok text ∧ Yaml.RefusedIn (Text.unifyNewlines text) e := by
  unfold documentOf at h
  split at h
  · next fault hdecode =>
    cases h
    exact .inl ⟨fault, hdecode, rfl⟩
  · next text hdecode =>
    have hfaults := Yaml.concludes_readDocument (Text.unifyNewlines text)
    split at h
    · cases h
    · cases h
    · next hread =>
      cases h
      exact .inr ⟨text, hdecode, hfaults.of_error hread _ rfl⟩

theorem documentOf_eq_ok {content : List UInt8} {v : Value} (h : documentOf content = .ok v) :
    ∃ text, Text.decode content = .ok text ∧
      Yaml.readDocument (Text.unifyNewlines text) = .ok v := by
  unfold documentOf at h
  split at h
  · cases h
  · next text hdecode =>
    split at h
    · next v' hread =>
      cases h
      exact ⟨text, hdecode, hread⟩
    · cases h
    · cases h

theorem documented_runnable : Packages.runnable.Documented where
  decodes content v h := by
    obtain ⟨text, hdecode, -⟩ := documentOf_eq_ok h
    exact ⟨text, hdecode⟩
  document_foreign content e h := by
    rcases documentOf_raised h with ⟨fault, -, rfl⟩ | ⟨text, -, hrefused⟩
    · simp [Error.families]
    · exact template_notMem_families hrefused.isScalar
  config_foreign v e h := by
    cases hconfig : Config.ofValue? v <;> simp [Packages.runnable, hconfig] at h

namespace Config

/-! ## Loading -/

variable {packages : Packages} {files : Files} {p : Path}

/-- Loading gives a configuration, or an error that names the path. -/
def Reported (packages : Packages) (files : Files) (p : Path) : Prop :=
  (∃ c, load packages files p = .ok c) ∨
    ∃ fault, load packages files p = .error (.config p.text fault)

/-- What stands at a path cannot be read, for an error that is none of a configuration. -/
inductive Unreadable (packages : Packages) (files : Files) (p : Path) : Error → Prop
  | directory {entries : List (String × Entry)} : files.entry? p = some (.directory entries) →
      Unreadable packages files p (.isDirectory p.text)
  | document {content : List UInt8} {e : Error} : files.entry? p = some (.file content) →
      packages.document content = .error (.raised e) → Unreadable packages files p e
  | config {content : List UInt8} {v : Value} {entries : List (Value × Value)} {e : Error} :
      files.entry? p = some (.file content) → packages.document content = .ok v →
      (if v.saysNothing then .dict [] else v) = .dict entries →
      packages.config (.dict entries) = .error (.raised e) → Unreadable packages files p e

theorem Unreadable.template_notMem (known : packages.Documented) {e : Error}
    (h : Unreadable packages files p e) : ErrorFamily.template ∉ e.families := by
  cases h with
  | directory => exact List.not_mem_nil
  | document _ hraised => exact known.document_foreign _ _ hraised
  | config _ _ _ hraised => exact known.config_foreign _ _ hraised

/-- Loading a file hands on the fault of its document. -/
theorem load_of_document_error {content : List UInt8} {fault : PackageFault}
    (hentry : files.entry? p = some (.file content))
    (hdocument : packages.document content = .error fault) :
    load packages files p = .error (fault.toError p.text .malformed) := by
  rw [load, hentry]
  simp only [hdocument]
  rfl

theorem load_of_document_ok {content : List UInt8} {v : Value}
    (hentry : files.entry? p = some (.file content))
    (hdocument : packages.document content = .ok v) :
    load packages files p = ofDocument packages p.text v := by
  rw [load, hentry]
  simp only [hdocument]
  rfl

theorem ofDocument_of_dict {path : String} {v : Value} {entries : List (Value × Value)}
    (hdict : (if v.saysNothing then .dict [] else v) = .dict entries) :
    ofDocument packages path v =
      (packages.config (.dict entries)).mapError (PackageFault.toError path .invalid) := by
  rw [ofDocument, hdict]

theorem Unreadable.load_eq {e : Error} (h : Unreadable packages files p e) :
    load packages files p = .error e := by
  cases h with
  | directory hentry => rw [load, hentry]
  | document hentry hraised => exact load_of_document_error hentry hraised
  | config hentry hdocument hdict hraised =>
    rw [load_of_document_ok hentry hdocument, ofDocument_of_dict hdict, hraised]
    rfl

/-- The value of a document is a configuration, what is wrong with it is reported, or the package
that checks it raises an error. -/
theorem ofDocument_cases (packages : Packages) (path : String) (v : Value) :
    (∃ c, ofDocument packages path v = .ok c) ∨
      (∃ fault, ofDocument packages path v = .error (.config path fault)) ∨
      ∃ entries e, (if v.saysNothing then .dict [] else v) = .dict entries ∧
        packages.config (.dict entries) = .error (.raised e) := by
  by_cases hdict : ∃ entries, (if v.saysNothing then .dict [] else v) = .dict entries
  · obtain ⟨entries, hdict⟩ := hdict
    rw [ofDocument_of_dict hdict]
    cases hconfig : packages.config (.dict entries) with
    | ok c => exact .inl ⟨c, rfl⟩
    | error fault =>
      cases fault with
      | refused detail => exact .inr (.inl ⟨_, rfl⟩)
      | raised e => exact .inr (.inr ⟨entries, e, hdict, hconfig⟩)
  · have hshape : ofDocument packages path v = .error (.config path .notMapping) := by
      unfold ofDocument
      split
      · next entries heq => exact absurd ⟨entries, heq⟩ hdict
      · rfl
    exact .inr (.inl ⟨_, hshape⟩)

theorem reported_or_unreadable (packages : Packages) (files : Files) (p : Path) :
    Reported packages files p ∨ ∃ e, Unreadable packages files p e := by
  cases hentry : files.entry? p with
  | none => exact .inl (.inl ⟨_, by rw [load, hentry]⟩)
  | some entry =>
    cases entry with
    | directory entries => exact .inr ⟨_, .directory hentry⟩
    | file content =>
      cases hdocument : packages.document content with
      | error fault =>
        cases fault with
        | refused detail => exact .inl (.inr ⟨_, load_of_document_error hentry hdocument⟩)
        | raised e => exact .inr ⟨e, .document hentry hdocument⟩
      | ok v =>
        have hload := load_of_document_ok hentry hdocument
        rcases ofDocument_cases packages p.text v with
          ⟨c, hc⟩ | ⟨fault, hfault⟩ | ⟨entries, e, hdict, hraised⟩
        · exact .inl (.inl ⟨c, hload.trans hc⟩)
        · exact .inl (.inr ⟨fault, hload.trans hfault⟩)
        · exact .inr ⟨e, .config hentry hdocument hdict hraised⟩

/-- Every scalar in a file that the packages that run give a configuration for has a value. -/
theorem accepted_of_load {content : List UInt8} {text : List Char} {c : Config} {node : Yaml.Node}
    (hentry : files.entry? p = some (.file content)) (hdecode : Text.decode content = .ok text)
    (hnode : Yaml.readNode (Text.unifyNewlines text) = .ok (some node))
    (hload : load .runnable files p = .ok c) : Yaml.Accepted node.given := by
  cases hdocument : Packages.runnable.document content with
  | error fault =>
    rw [load_of_document_error hentry hdocument] at hload
    cases hload
  | ok v =>
    obtain ⟨text', hdecode', hread⟩ := documentOf_eq_ok hdocument
    cases hdecode.symm.trans hdecode'
    exact (Yaml.concludes_readDocument _).of_ok hread node hnode

/-- **Every outcome of loading a configuration**: a configuration or an error that names the path,
exactly if nothing keeps the path from being read. What does keeps it so with its own error, which
belongs to no family of template errors, and every error of that kind is brought about in this way.
Bytes that are no text never give a configuration: the error is one of the other kinds, unless the
document was refused before they were met. -/
theorem load_reported_iff (known : packages.Documented) (files : Files) (p : Path) :
    (Reported packages files p ↔ ∀ e, ¬Unreadable packages files p e) ∧
      (∀ e, Unreadable packages files p e ↔
        load packages files p = .error e ∧ ErrorFamily.template ∉ e.families) ∧
      ∀ content fault, files.entry? p = some (.file content) →
        Text.decode content = .error fault →
        (∃ e, Unreadable packages files p e) ∨
          ∃ detail, load packages files p = .error (.config p.text (.malformed detail)) := by
  have apart : Reported packages files p →
      ∀ e, load packages files p = .error e → ErrorFamily.template ∈ e.families := by
    rintro (⟨c, hc⟩ | ⟨fault, hfault⟩) e he
    · cases hc.symm.trans he
    · cases hfault.symm.trans he
      exact List.mem_singleton_self _
  refine ⟨⟨fun hreported e h => ?_, fun h => ?_⟩, fun e => ⟨fun h => ?_, fun ⟨he, hfamily⟩ => ?_⟩,
    fun content fault hentry hdecode => ?_⟩
  · exact h.template_notMem known (apart hreported e h.load_eq)
  · exact (reported_or_unreadable packages files p).resolve_right fun ⟨e, he⟩ => h e he
  · exact ⟨h.load_eq, h.template_notMem known⟩
  · rcases reported_or_unreadable packages files p with hreported | ⟨e', he'⟩
    · exact absurd (apart hreported e he) hfamily
    · cases he'.load_eq.symm.trans he
      exact he'
  · cases hdocument : packages.document content with
    | ok v =>
      obtain ⟨text, htext⟩ := known.decodes content v hdocument
      cases hdecode.symm.trans htext
    | error fault =>
      cases fault with
      | refused detail => exact .inr ⟨detail, load_of_document_error hentry hdocument⟩
      | raised e => exact .inl ⟨e, .document hentry hdocument⟩

/-- The bytes of an ASCII text. -/
def asciiBytes (s : String) : List UInt8 := s.toList.map fun c => UInt8.ofNat c.toNat

/-- A tree with a directory and with files that cannot be read. -/
def strayTree : Entry :=
  .directory [("folder", .directory []), ("latin", .file [0x6E, 0xFF]),
    ("dated", .file (asciiBytes "vars: \x7bday: 2024-13-01\x7d\n")),
    ("escaped", .file (asciiBytes "\"\\U00110000\"\n")),
    ("open", .file (asciiBytes "style: [\n")), ("plain", .file (asciiBytes "style: always\n"))]

/-- The files of the tree. -/
def strayFiles : Files := strayTree.files []

/-- The path of a file of the tree. -/
def strayPath (name : String) : Path := ⟨false, [name]⟩

/-- The wording and the families of the error of a result. -/
def failure? {α : Type} : Except Error α → Option (String × List ErrorFamily)
  | .error e => some (e.message, e.families)
  | .ok _ => none

theorem strayFiles_reported_or_unreadable :
    Packages.runnable.Documented ∧
      (∃ e, Unreadable .runnable strayFiles (strayPath "folder") e ∧
        e.message = "[Errno 21] Is a directory: 'folder'") ∧
      (∃ e, Unreadable .runnable strayFiles (strayPath "latin") e ∧
        e.message = "'utf-8' codec can't decode byte 0xff in position 1: invalid start byte") ∧
      (∃ e, Unreadable .runnable strayFiles (strayPath "dated") e ∧
        e.message = "month must be in 1..12") ∧
      (∃ e, Unreadable .runnable strayFiles (strayPath "escaped") e ∧
        e.message = "chr() arg not in range(0x110000)") ∧
      ∀ name ∈ ["open", "plain", "missing"], Reported .runnable strayFiles (strayPath name) := by
  have hall := fun name =>
    load_reported_iff documented_runnable strayFiles (strayPath name)
  have unreadable : ∀ name message families,
      failure? (load .runnable strayFiles (strayPath name)) = some (message, families) →
      ErrorFamily.template ∉ families →
      ∃ e, Unreadable .runnable strayFiles (strayPath name) e ∧ e.message = message := by
    intro name message families hfailure hfamilies
    cases hload : load .runnable strayFiles (strayPath name) with
    | ok c => rw [hload] at hfailure; cases hfailure
    | error e =>
      rw [hload] at hfailure
      cases hfailure
      exact ⟨e, ((hall name).2.1 e).2 ⟨hload, hfamilies⟩, rfl⟩
  have readable : ∀ name, (∀ failure ∈ failure? (load .runnable strayFiles (strayPath name)),
      ErrorFamily.template ∈ failure.2) → Reported .runnable strayFiles (strayPath name) := by
    refine fun name h => (hall name).1.2 fun e he => ?_
    obtain ⟨hload, hfamilies⟩ := ((hall name).2.1 e).1 he
    rw [hload] at h
    exact hfamilies (h _ rfl)
  have kept : ∀ name ∈ ["open", "plain", "missing"],
      ∀ failure ∈ failure? (load .runnable strayFiles (strayPath name)),
        ErrorFamily.template ∈ failure.2 := by decide +kernel
  exact ⟨documented_runnable, unreadable "folder" _ [] (by decide +kernel) (by decide),
    unreadable "latin" _ [.value] (by decide +kernel) (by decide),
    unreadable "dated" _ [.value] (by decide +kernel) (by decide),
    unreadable "escaped" _ [.value] (by decide +kernel) (by decide),
    fun name hname => readable name (kept name hname)⟩

/-- The files of a directory with a configuration of one byte that starts no character. -/
def strayByte : Files := (Entry.directory [(fileName, .file [0xFF])]).files []

/-- **A byte that is no text is not reported**: the error of the decoding comes out as it is. -/
theorem strayByte_is_not_reported :
    load .runnable strayByte (strayPath fileName) = .error (.notUtf8 ⟨0, [0xFF], .startByte⟩) ∧
      ¬Reported .runnable strayByte (strayPath fileName) := by
  have hload : load .runnable strayByte (strayPath fileName) =
      .error (.notUtf8 ⟨0, [0xFF], .startByte⟩) := rfl
  refine ⟨hload, ?_⟩
  rintro (⟨c, hc⟩ | ⟨fault, hfault⟩)
  · cases hload.symm.trans hc
  · cases hload.symm.trans hfault

end Config

end ShellTemplate
