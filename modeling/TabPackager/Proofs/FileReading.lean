import TabPackager.Proofs.Acceptance
import TabPackager.Proofs.TomlLimits

/-!
# Reading configuration files

How the reading of a configuration file ends. Whatever stands at its path, and whatever the system
says to its reading, a result or a refusal of the configuration follows, but for one case: a
document that keeps the rules of its notation and holds a value that its reader rejects.
-/

namespace TabPackager

namespace FileSystem

variable {fs : FileSystem} {cwd : Location} {s : String}

theorem descend_ne_nulByte {follow : Bool} (here : Location) (cs : List String) :
    fs.descend follow here cs ≠ .refused .nulByte := by
  fun_induction descend fs follow here cs <;> simp_all

theorem walk_ne_nulByte {follow : Bool} (hops : Nat) (here : Location) (cs : List String) :
    fs.walk follow hops here cs ≠ .error .nulByte := by
  intro h
  fun_induction walk fs follow hops here cs with
  | case1 hops here cs spot hd => cases h
  | case2 hops here cs why hd =>
    cases h
    exact descend_ne_nulByte here cs hd
  | case3 here cs h' t r hd => cases h
  | case4 here cs h' t r hd hops ih => exact ih h

theorem resolve_ne_nulByte (hs : '\x00' ∉ s.toList) (follow : Bool) :
    fs.resolve follow cwd s ≠ .error .nulByte := by
  unfold resolve
  rw [if_neg hs]
  split
  · simp
  · split
    · simp
    · exact walk_ne_nulByte _ _ _

theorem stat_ne_nulByte (hs : '\x00' ∉ s.toList) : fs.stat cwd s ≠ .error .nulByte := by
  intro h
  rw [stat, bind_eq_error] at h
  rcases h with h | ⟨spot, -, h⟩
  · exact resolve_ne_nulByte hs true h
  · grind

/-- Only a text with a zero byte is refused before the system is asked. -/
theorem contentOf_ne_nulByte (hs : '\x00' ∉ s.toList) :
    fs.contentOf cwd s ≠ .error .nulByte := by
  intro h
  rw [contentOf, bind_eq_error] at h
  rcases h with h | ⟨found, -, h⟩
  · exact stat_ne_nulByte hs h
  · grind

end FileSystem

theorem Refusal.describe?_eq_none_iff {why : Refusal} :
    why.describe? = none ↔ why = .nulByte := by
  cases why <;> simp [Refusal.describe?]

namespace Config

variable {path : Path} {found : Except Refusal (Content × Int)}

/-- How a document comes out that its reader has been given. -/
def outcomeOf (path : Path) (markup : Markup) : Reading Value → Except Fault Entries
  | .error f => .error (readFault path markup f)
  | .ok .null => .ok []
  | .ok (.map es) => .ok es
  | .ok _ => .error (.config (.notMapping path))

def loadFound (path : Path) (found : Except Refusal (Content × Int)) : Except Fault Entries :=
  match Markup.ofSuffix? (Text.lowercase path.suffix) with
  | none => .error (.config (.unsupportedSuffix (Text.lowercase path.suffix)))
  | some markup =>
    match found with
    | .error why =>
      match why.describe? with
      | some (_, reason) => .error (.config (.unreadable path reason))
      | none => .error (.escape .nulByte)
    | .ok (content, _) =>
      match textOf? content with
      | none => .error (.config (.notUtf8 path))
      | some text => outcomeOf path markup (markup.read text.toList)

theorem loadFile_eq (fs : FileSystem) (cwd : Location) (path : Path) :
    loadFile fs cwd path = loadFound path (fs.contentOf cwd path.text) := by
  unfold loadFile loadFound
  generalize Text.lowercase path.suffix = suffix
  generalize fs.contentOf cwd path.text = found
  dsimp only
  cases Markup.ofSuffix? suffix with
  | none => rfl
  | some markup =>
    generalize markup.read = read
    cases found with
    | error why =>
      dsimp only
      cases why.describe? <;> rfl
    | ok found =>
      dsimp only [bind, Except.bind]
      cases textOf? found.1 with
      | none => rfl
      | some text =>
        dsimp only
        cases read text.toList with
        | error f => rfl
        | ok v => cases v <;> rfl

/-- The document that a reader is given: the file has been read, its bytes are text, and its suffix
names a notation. -/
def documentOf? (path : Path) (found : Except Refusal (Content × Int)) :
    Option (Markup × String) := do
  let markup ← Markup.ofSuffix? (Text.lowercase path.suffix)
  let (content, _) ← found.toOption
  let text ← textOf? content
  return (markup, text)

/-- The reader rejects a value of the document, which keeps the rules of its notation. -/
def Rejects (path : Path) (found : Except Refusal (Content × Int)) (why : Rejection) : Prop :=
  ∃ markup text, documentOf? path found = some (markup, text) ∧
    markup.read text.toList = .error (.rejected why)

theorem loadFound_of_document {markup : Markup} {text : String}
    (h : documentOf? path found = some (markup, text)) :
    loadFound path found = outcomeOf path markup (markup.read text.toList) := by
  simp only [documentOf?, Option.bind_eq_bind, Option.bind_eq_some_iff] at h
  obtain ⟨m, hm, ⟨content, time⟩, hf, t, ht, h⟩ := h
  cases h
  rw [loadFound, hm, eq_ok_of_toOption hf]
  dsimp only
  rw [ht]

theorem loadFound_of_no_document (hfound : found ≠ .error .nulByte)
    (h : documentOf? path found = none) : ∃ e, loadFound path found = .error (.config e) := by
  unfold loadFound
  unfold documentOf? at h
  cases hm : Markup.ofSuffix? (Text.lowercase path.suffix) with
  | none => exact ⟨_, rfl⟩
  | some markup =>
    cases found with
    | error why =>
      dsimp only
      cases hw : why.describe? with
      | none =>
        rw [Refusal.describe?_eq_none_iff] at hw
        exact absurd (congrArg Except.error hw) hfound
      | some said => exact ⟨_, rfl⟩
    | ok read =>
      dsimp only
      cases ht : textOf? read.1 with
      | none => exact ⟨_, rfl⟩
      | some text => simp [hm, Except.toOption, ht] at h

theorem outcomeOf_eq_error {markup : Markup} {r : Reading Value} {e : Fault}
    (h : outcomeOf path markup r = .error e) :
    (∃ c, e = .config c) ∨ ∃ why, r = .error (.rejected why) ∧ e = .escape (.rejected why) := by
  unfold outcomeOf at h
  split at h
  · next f =>
    cases h
    cases f with
    | malformed => exact .inl ⟨_, rfl⟩
    | rejected why => exact .inr ⟨why, rfl, rfl⟩
  · cases h
  · cases h
  · cases h
    exact .inl ⟨_, rfl⟩

theorem loadFound_eq_error (hfound : found ≠ .error .nulByte) {e : Fault}
    (h : loadFound path found = .error e) :
    (∃ c, e = .config c) ∨ ∃ why, Rejects path found why ∧ e = .escape (.rejected why) := by
  cases hd : documentOf? path found with
  | none =>
    obtain ⟨c, hc⟩ := loadFound_of_no_document hfound hd
    cases hc.symm.trans h
    exact .inl ⟨c, rfl⟩
  | some document =>
    obtain ⟨markup, text⟩ := document
    rw [loadFound_of_document hd] at h
    rcases outcomeOf_eq_error h with hc | ⟨why, hwhy, he⟩
    · exact .inl hc
    · exact .inr ⟨why, ⟨markup, text, hd, hwhy⟩, he⟩

theorem loadFound_of_rejects {why : Rejection} (h : Rejects path found why) :
    loadFound path found = .error (.escape (.rejected why)) := by
  obtain ⟨markup, text, hd, hr⟩ := h
  rw [loadFound_of_document hd, hr]
  rfl

/-- How a configuration file is read: with a result, or with a refusal that can be reported, unless
its reader rejects a value, which a reader of JSON or TOML does only in a document that is too
large. -/
structure Reported (fs : FileSystem) (cwd : Location) (path : Path) : Prop where
  loaded : ∀ e, loadFile fs cwd path = .error e → (∃ c, e = .config c) ∨
    ∃ why, Rejects path (fs.contentOf cwd path.text) why ∧ e = .escape (.rejected why)
  packed : ∀ e, packagingOfFile fs cwd path = .error e → (∃ c, e = .config c) ∨
    (∃ why, Rejects path (fs.contentOf cwd path.text) why ∧ e = .escape (.rejected why)) ∨
    e = .unshowable ∧ ∃ es, loadFile fs cwd path = .ok es ∧
      ∃ k ∈ foreignKeys es, k.isShowable = false
  rejected : ∀ why, Rejects path (fs.contentOf cwd path.text) why →
    loadFile fs cwd path = .error (.escape (.rejected why)) ∧
    packagingOfFile fs cwd path = .error (.escape (.rejected why))
  refused : ∀ why, why ≠ .nulByte → ∃ c, loadFound path (.error why) = .error (.config c)
  tooLarge : ∀ markup text why, documentOf? path (fs.contentOf cwd path.text) =
    some (markup, text) → markup ≠ .yaml → markup.read text.toList = .error (.rejected why) →
      Exceeds nestingLimit text.toList why

theorem file_reported {path : Path} (hpath : '\x00' ∉ path.text.toList) (fs : FileSystem)
    (cwd : Location) : Reported fs cwd path := by
  have hfound : fs.contentOf cwd path.text ≠ .error .nulByte :=
    FileSystem.contentOf_ne_nulByte hpath
  have hloaded {e : Fault} (h : loadFile fs cwd path = .error e) : (∃ c, e = .config c) ∨
      ∃ why, Rejects path (fs.contentOf cwd path.text) why ∧ e = .escape (.rejected why) := by
    rw [loadFile_eq] at h
    exact loadFound_eq_error hfound h
  constructor
  case loaded => exact fun e => hloaded
  case packed =>
    intro e h
    rw [packagingOfFile, bind_eq_error] at h
    rcases h with h | ⟨es, hes, h⟩
    · exact (hloaded h).imp_right .inl
    · exact (ofEntries_eq_error h).imp_right fun ⟨he, hk⟩ => .inr ⟨he, es, hes, hk⟩
  case rejected =>
    intro why h
    have hload : loadFile fs cwd path = .error (.escape (.rejected why)) := by
      rw [loadFile_eq, loadFound_of_rejects h]
    exact ⟨hload, by rw [packagingOfFile, hload]; rfl⟩
  case refused =>
    intro why hwhy
    refine loadFound_of_no_document (fun h => hwhy (Except.error.inj h)) ?_
    cases hm : Markup.ofSuffix? (Text.lowercase path.suffix) <;>
      simp [documentOf?, hm, Except.toOption]
  case tooLarge =>
    intro markup text why _ hm hr
    cases markup with
    | toml => exact Toml.exceeds_of_read hr
    | json => exact Json.exceeds_of_read hr
    | yaml => exact absurd rfl hm

def doubtfulFile : FileSystem :=
  ⟨[(["pack.yaml"], .file 0 (.bytes "tools: !!bool maybe\n".toUTF8) 1000000000000000000)]⟩

theorem file_reported_of_doubtfulFile : Reported doubtfulFile [] (.parse "pack.yaml") :=
  file_reported (by decide) doubtfulFile []

theorem doubtfulFile_not_refused :
    '\x00' ∉ (Path.parse "pack.yaml").text.toList ∧
    loadFile doubtfulFile [] (.parse "pack.yaml") = .error (.escape (.rejected .word)) ∧
    packagingOfFile doubtfulFile [] (.parse "pack.yaml") =
      .error (.escape (.rejected .word)) := by
  have hdocument : documentOf? (.parse "pack.yaml")
      (doubtfulFile.contentOf [] (Path.parse "pack.yaml").text) =
      some (.yaml, "tools: !!bool maybe\n") := by decide
  have hrejected : Yaml.read "tools: !!bool maybe\n".toList = .error (.rejected .word) := by
    have h : (match Yaml.read "tools: !!bool maybe\n".toList with
        | .error f => decide (f = .rejected .word)
        | .ok _ => false) = true := by decide +kernel
    split at h
    · next f hf => rw [hf, of_decide_eq_true h]
    · cases h
  have hload : loadFile doubtfulFile [] (.parse "pack.yaml") =
      .error (.escape (.rejected .word)) := by
    rw [loadFile_eq]
    exact loadFound_of_rejects ⟨.yaml, _, hdocument, hrejected⟩
  exact ⟨by decide, hload, by rw [packagingOfFile, hload]; rfl⟩

end Config

end TabPackager
