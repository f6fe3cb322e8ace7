import TabPackager.Proofs.ArtifactPaths
import TabPackager.Proofs.OutcomeTable

/-!
# Artifacts below the target directory

A layout puts its artifacts below the target directory of the workspace if neither the binary nor
the triple starts with a slash. A name that does starts a path of its own: what stands in front of
it is dropped, the target directory with it, and the workspace as soon as the path is joined to
one. Below is meant lexically here, and double dots are components like all others.
-/

namespace TabPackager

open Text

/-- A text that starts no path of its own. -/
def Bare (s : String) : Prop := s.toList.head? ≠ some '/'

instance : DecidablePred Bare := fun s => by unfold Bare; infer_instance

namespace Path

theorem anchorOf_eq_relative_iff {cs : List Char} :
    anchorOf cs = .relative ↔ cs.head? ≠ some '/' := by
  unfold anchorOf
  split
  · simp
  · simp
  · simp
  · next hslash =>
    cases cs with
    | nil => simp
    | cons c cs => simpa using fun he : c = '/' => hslash cs (he ▸ rfl)

theorem anchor_parse_eq_relative_iff {s : String} : (parse s).anchor = .relative ↔ Bare s :=
  anchorOf_eq_relative_iff

theorem bare_append_iff {s ext : String} (hext : '/' ∉ ext.toList) :
    Bare (s ++ ext) ↔ Bare s := by
  rw [← anchor_parse_eq_relative_iff, anchor_parse_append s hext, anchor_parse_eq_relative_iff]

/-- The path names something in the directory, at whatever depth. -/
structure Below (p d : Path) : Prop where
  anchor : p.anchor = d.anchor
  parts : ∃ c cs, p.parts = d.parts ++ c :: cs

section

variable {p d : Path} {s : String}

theorem child_below (hs : Bare s) (hparts : (parse s).parts ≠ []) : (d.child s).Below d := by
  have hrelative := anchor_parse_eq_relative_iff.mpr hs
  obtain ⟨c, cs, hcons⟩ := List.exists_cons_of_ne_nil hparts
  refine ⟨?_, c, cs, ?_⟩
  · rw [anchor_child, if_pos hrelative]
  · rw [parts_child, if_pos hrelative, hcons]

theorem Below.child (h : p.Below d) (hs : Bare s) : (p.child s).Below d := by
  have hrelative := anchor_parse_eq_relative_iff.mpr hs
  obtain ⟨c, cs, hparts⟩ := h.parts
  refine ⟨?_, c, cs ++ (parse s).parts, ?_⟩
  · rw [anchor_child, if_pos hrelative, h.anchor]
  · rw [parts_child, if_pos hrelative, hparts, List.append_assoc, List.cons_append]

theorem Below.joined (h : p.Below d) (hd : d.anchor = .relative) (workspace : Path) :
    (workspace / p).Below (workspace / d) := by
  have hp : p.anchor = .relative := h.anchor.trans hd
  obtain ⟨c, cs, hparts⟩ := h.parts
  change (join workspace p).Below (join workspace d)
  rw [join, join, if_pos hp, if_pos hd]
  refine ⟨rfl, c, cs, ?_⟩
  dsimp only
  rw [hparts, List.append_assoc]

theorem isAbsolute_eq_false_iff : p.isAbsolute = false ↔ p.anchor = .relative := by
  simp [isAbsolute]

theorem join_of_isAbsolute (h : p.isAbsolute = true) (workspace : Path) : workspace / p = p := by
  have hanchor : p.anchor ≠ .relative := by
    rw [Ne, ← isAbsolute_eq_false_iff, h]
    decide
  exact if_neg hanchor

end

/-- The path is relative, starts with the target directory, and leads below it in every
workspace. -/
structure Confined (p : Path) : Prop where
  relative : p.isAbsolute = false
  first : p.parts.head? = some "target"
  joined : ∀ workspace : Path, (workspace / p).Below (workspace / Layout.targetDirectory)

theorem Below.confined {p : Path} (h : p.Below Layout.targetDirectory) : p.Confined where
  relative := isAbsolute_eq_false_iff.mpr h.anchor
  first := by
    obtain ⟨c, cs, hparts⟩ := h.parts
    rw [hparts]
    rfl
  joined := h.joined rfl

end Path

namespace Layout

open TabPackager.Path

variable {l : Layout}

theorem tab_below (h : Bare l.binary) : l.tab.Below targetDirectory := by
  refine child_below ((bare_append_iff (by decide)).mpr h) ?_
  rw [parts_parse_append l.binary (by decide) (by decide)]
  exact List.append_ne_nil_of_right_ne_nil _ (List.cons_ne_nil _ _)

theorem profileDirectory_below (h : Bare l.triple) :
    l.profileDirectory.Below targetDirectory := by
  have hrelative := anchor_parse_eq_relative_iff.mpr h
  refine ⟨l.anchor_profileDirectory.trans hrelative, ?_⟩
  rw [parts_profileDirectory, if_pos hrelative, List.append_assoc]
  cases (parse l.triple).parts with
  | nil => exact ⟨profile, [], rfl⟩
  | cons c cs => exact ⟨c, cs ++ [profile], rfl⟩

theorem elf_below (hb : Bare l.binary) (ht : Bare l.triple) : l.elf.Below targetDirectory :=
  (profileDirectory_below ht).child hb

theorem tbf_below (hb : Bare l.binary) (ht : Bare l.triple) : l.tbf.Below targetDirectory :=
  (profileDirectory_below ht).child ((bare_append_iff (by decide)).mpr hb)

theorem bare_of_tab_relative (h : l.tab.isAbsolute = false) : Bare l.binary := by
  rw [isAbsolute_eq_false_iff, tab, anchor_child, anchor_parse_append l.binary (by decide)] at h
  by_contra hb
  rw [← anchor_parse_eq_relative_iff] at hb
  rw [if_neg hb] at h
  exact hb h

/-- A path in the directory of the profile is relative only if its name and the triple are
bare. -/
theorem bare_of_child_relative {s : String} (h : (l.profileDirectory.child s).isAbsolute = false) :
    Bare s ∧ Bare l.triple := by
  rw [isAbsolute_eq_false_iff, anchor_child, anchor_profileDirectory] at h
  rw [← anchor_parse_eq_relative_iff, ← anchor_parse_eq_relative_iff]
  split at h
  · next hs => exact ⟨hs, h⟩
  · next hs => exact absurd h hs

theorem tab_confined_iff : l.tab.Confined ↔ Bare l.binary :=
  ⟨fun h => bare_of_tab_relative h.relative, fun h => (tab_below h).confined⟩

theorem elf_confined_iff : l.elf.Confined ↔ Bare l.binary ∧ Bare l.triple :=
  ⟨fun h => bare_of_child_relative h.relative, fun h => (elf_below h.1 h.2).confined⟩

theorem tbf_confined_iff : l.tbf.Confined ↔ Bare l.binary ∧ Bare l.triple := by
  constructor
  · intro h
    have hbare := bare_of_child_relative h.relative
    rwa [bare_append_iff (by decide)] at hbare
  · intro h
    exact (tbf_below h.1 h.2).confined

theorem confined_or_absolute {p : Path} (h : p ∈ [l.elf, l.tab, l.tbf]) :
    p.Confined ∨ p.isAbsolute = true ∧ ∀ workspace, workspace / p = p := by
  have habsolute (hconfined : p.isAbsolute = false → p.Confined) :
      p.Confined ∨ p.isAbsolute = true ∧ ∀ workspace, workspace / p = p := by
    cases hp : p.isAbsolute with
    | false => exact .inl (hconfined hp)
    | true => exact .inr ⟨rfl, join_of_isAbsolute hp⟩
  simp only [List.mem_cons, List.not_mem_nil, or_false] at h
  rcases h with rfl | rfl | rfl
  · exact habsolute fun h => elf_confined_iff.mpr (bare_of_child_relative h)
  · exact habsolute fun h => tab_confined_iff.mpr (bare_of_tab_relative h)
  · refine habsolute fun h => tbf_confined_iff.mpr ?_
    have hbare := bare_of_child_relative h
    rwa [bare_append_iff (by decide)] at hbare

end Layout

/-- Of the file system, the action asks only whether there are files below the directory, and it
changes nothing there. -/
def AsksBelow {α : Type} (cwd d : Path) (a : Action α) : Prop :=
  ∀ (w : World) (files : FileSystem),
    (∀ p : Path, p.Below d →
      files.isFile cwd.parts p.text = w.files.isFile cwd.parts p.text) →
    a.exec { w with files } = ((a.exec w).1, { (a.exec w).2 with files })

namespace CommandLine

open Layout

/-- The look for the executable, the command of the packaging tool and the members of the bundle
stay below the target directory of the workspace. -/
structure Within (l : Layout) : Prop where
  check : ∀ s : Pipeline.Setup,
    AsksBelow s.cwd (s.workspace / targetDirectory) (Pipeline.checkElf s l)
  command : ∀ config, ∃ front out elf,
    packageCommand l config = front ++ ["--output-file", out, elf] ∧
      (Path.parse out).Confined ∧ (Path.parse elf).Confined
  lookup : ∀ (host : Host) (workspace : Path) (r : Packaged), r.layout = l →
    AsksBelow host.cwd (workspace / targetDirectory) (bundleMembers host workspace r)
  members : ∀ (host : Host) (workspace : Path) (r : Packaged) (w : World) (members),
    r.layout = l → ((bundleMembers host workspace r).exec w).1 = .ok members →
    ∀ m ∈ members, m.path.Below (workspace / targetDirectory)

section

variable {l : Layout}

theorem asksBelow_checkElf (h : l.elf.Confined) (s : Pipeline.Setup) :
    AsksBelow s.cwd (s.workspace / targetDirectory) (Pipeline.checkElf s l) := by
  intro w files hfiles
  have hfault : Pipeline.elfFault? s l files = Pipeline.elfFault? s l w.files := by
    rw [Pipeline.elfFault?, Pipeline.elfFault?, hfiles _ (h.joined s.workspace)]
  rw [Pipeline.exec_checkElf, Pipeline.exec_checkElf, hfault]
  cases Pipeline.elfFault? s l w.files with
  | none => rfl
  | some f => rfl

theorem asksBelow_bundleMembers (h : l.tbf.Confined) (host : Host) (workspace : Path)
    {r : Packaged} (hr : r.layout = l) :
    AsksBelow host.cwd (workspace / targetDirectory) (bundleMembers host workspace r) := by
  intro w files hfiles
  have hfound : tbfAt host workspace r files = tbfAt host workspace r w.files := by
    rw [tbfAt, tbfAt, hr, hfiles _ (h.joined workspace)]
  rw [exec_bundleMembers, exec_bundleMembers, hfound]
  cases tbfAt host workspace r w.files with
  | error why => rfl
  | ok there => rfl

theorem artifacts_below (htab : l.tab.Confined) (htbf : l.tbf.Confined) (workspace : Path)
    (there : Bool) {m : Bundle.Member} (hm : m ∈ artifacts workspace l there) :
    m.path.Below (workspace / targetDirectory) := by
  cases there with
  | false =>
    rw [artifacts, if_neg (by decide), List.mem_singleton] at hm
    exact hm ▸ htab.joined workspace
  | true =>
    rw [artifacts, if_pos rfl, List.mem_pair] at hm
    rcases hm with rfl | rfl
    · exact htab.joined workspace
    · exact htbf.joined workspace

theorem within_of_bare (hb : Bare l.binary) (ht : Bare l.triple) : Within l := by
  have helf := elf_confined_iff.mpr ⟨hb, ht⟩
  have htab := tab_confined_iff.mpr hb
  have htbf := tbf_confined_iff.mpr ⟨hb, ht⟩
  refine ⟨asksBelow_checkElf helf, ?_, fun host workspace r hr =>
    asksBelow_bundleMembers htbf host workspace hr, ?_⟩
  · intro config
    refine ⟨config.elf2tab ++ ["--package-name", l.binary] ++ packageMetadata, l.tab.text,
      l.elf.text, rfl, ?_, ?_⟩
    · rwa [Path.parse_text]
    · rwa [Path.parse_text]
  · intro host workspace r w members hr hmembers m hm
    rw [exec_bundleMembers, hr] at hmembers
    cases hfound : tbfAt host workspace r w.files with
    | error why =>
      rw [hfound] at hmembers
      cases hmembers
    | ok there =>
      rw [hfound] at hmembers
      cases hmembers
      exact artifacts_below htab htbf workspace there hm

end

/-- The bundle lies below the target directory exactly if the binary is bare, the executable and
the binary format exactly if the triple is bare too; what is not confined is absolute and leads out
of every workspace. With two bare names a run looks for artifacts, has them made and bundles them
only below the target directory. -/
theorem artifacts_confined (l : Layout) :
    (l.tab.Confined ↔ Bare l.binary) ∧
    (l.elf.Confined ↔ Bare l.binary ∧ Bare l.triple) ∧
    (l.tbf.Confined ↔ Bare l.binary ∧ Bare l.triple) ∧
    (∀ p ∈ [l.elf, l.tab, l.tbf],
      p.Confined ∨ p.isAbsolute = true ∧ ∀ workspace, workspace / p = p) ∧
    (Bare l.binary → Bare l.triple → Within l) :=
  ⟨tab_confined_iff, elf_confined_iff, tbf_confined_iff, fun _ => confined_or_absolute,
    within_of_bare⟩

def strayFiles : FileSystem :=
  ⟨[(["ws"], .directory), (["blinky"], .file 0 (.bytes ByteArray.empty) 0)]⟩

def idleTools : Tools := fun _ _ files => { files, ending := .exited 0 }

def slashedLayout : Layout := ⟨"/blinky", "thumbv6m-none-eabi"⟩

/-- A binary with a slash in front: the file of that name outside the workspace passes for the
executable, and packaging is to put the bundle beside it. -/
theorem slashedBinary_packaged :
    (parse ["/blinky", "thumbv6m-none-eabi"]).toOption =
      some ({}, [slashedLayout.binary, slashedLayout.triple]) ∧
    (∀ p ∈ [slashedLayout.elf, slashedLayout.tab, slashedLayout.tbf], ¬ p.Confined) ∧
    (run sampleHost idleTools ["/blinky", "thumbv6m-none-eabi"] strayFiles).ending.toOption =
      some 0 ∧
    ((run sampleHost idleTools ["/blinky", "thumbv6m-none-eabi"] strayFiles).calls.map
      (·.command)).getLast? = some
        (["elf2tab", "--package-name", "/blinky"] ++ packageMetadata ++
          ["--output-file", "/blinky.tab", "/blinky"]) := by
  have hbare : ¬ Bare slashedLayout.binary := by decide
  refine ⟨by decide +kernel, ?_, by decide +kernel, by decide +kernel⟩
  intro p hp
  simp only [List.mem_cons, List.not_mem_nil, or_false] at hp
  rcases hp with rfl | rfl | rfl
  · exact fun h => hbare (elf_confined_iff.mp h).1
  · exact fun h => hbare (tab_confined_iff.mp h)
  · exact fun h => hbare (tbf_confined_iff.mp h).1

end CommandLine

end TabPackager
