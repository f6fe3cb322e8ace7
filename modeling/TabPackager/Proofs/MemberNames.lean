import TabPackager.Proofs.ArtifactPaths
import TabPackager.Proofs.BundleContents
import TabPackager.Proofs.NulFree

/-!
# Names of members

The members of an archive are read back under the names under which files were put in, in order,
if these are names that a file can have in a directory. The last component of a path at which a
file stands is such a name.
-/

namespace TabPackager

def Archive.names {β : Type} : Archive β → List String
  | zip entries => entries.map (·.name)
  | tar entries => entries.map (·.storedName)
  | gzip _ _ entries => entries.map (·.storedName)
  | zstd _ _ entries => entries.map (·.storedName)

namespace FileSystem

section

variable {fs : FileSystem} {here : Location} {c : String} {ds : List String} {s : Spot}

end

variable {fs : FileSystem} {cwd : Location} {p : Path} {c : String}

theorem lstat_of_isFile (h : fs.isFile cwd p.text = .ok true) :
    ∃ loc e, fs.lstat cwd p.text = .ok (loc, e) ∧ e ≠ .directory := by
  obtain ⟨loc, i, k, t, hs⟩ := isFile_eq_true.mp h
  rcases lstat_of_stat hs with hl | ⟨loc', target, m, hl⟩
  · exact ⟨loc, _, hl, nofun⟩
  · exact ⟨loc', _, hl, nofun⟩

end FileSystem

namespace Bundle

open FileSystem

variable {fs : FileSystem} {cwd : Location} {p : Path} {c name : String} {s : Examined}
  {stored : List (Nat × String)} {members : List Member}

/-- Whatever kind of file a member is, something is stored for it under its name. -/
theorem tarEntry?_of_isFile (hs : Seen fs cwd p s) (h : fs.isFile cwd p.text = .ok true) :
    ∃ e, tarEntry? stored name s = some e ∧ e.name = withoutRoot name := by
  obtain ⟨loc, e, hl, hne⟩ := lstat_of_isFile h
  cases e with
  | directory => exact absurd rfl hne
  | link target t =>
    rw [hs.link hl]
    exact ⟨_, rfl, rfl⟩
  | file i k t =>
    obtain ⟨names, rfl⟩ := hs.file hl
    obtain ⟨e, he, hname, -⟩ := tarEntry?_file stored name i names k t
    exact ⟨e, he, hname⟩

structure Storable (fs : FileSystem) (cwd : Location) (m : Member) : Prop where
  file : fs.isFile cwd m.path.text = .ok true
  plain : IsFileName m.name

theorem TarPacked.names {entries : List (TarEntry Content)}
    (h : TarPacked fs cwd stored members entries) (hm : ∀ m ∈ members, Storable fs cwd m) :
    entries.map (·.storedName) = members.map (·.name) := by
  induction h with
  | nil => rfl
  | skip seen hnone _ _ =>
    obtain ⟨e, he, -⟩ := tarEntry?_of_isFile seen (hm _ List.mem_cons_self).file
    cases hnone.symm.trans he
  | @store stored m members entries s e seen hsome _ ih =>
    rw [List.forall_mem_cons] at hm
    obtain ⟨e', he', hname⟩ := tarEntry?_of_isFile seen hm.1.file
    obtain rfl : e = e' := Option.some.inj (hsome.symm.trans he')
    rw [hm.1.plain.withoutRoot] at hname
    have hstored : e.storedName = m.name := by
      rw [← hname]
      exact IsFileName.storedName (hname ▸ hm.1.plain)
    rw [List.map_cons, List.map_cons, hstored, ih hm.2]

theorem ZipPacked.names {entries : List (ZipEntry Content)}
    (h : ZipPacked fs cwd members entries) (hm : ∀ m ∈ members, Storable fs cwd m) :
    entries.map (·.name) = members.map (·.name) := by
  induction h with
  | nil => rfl
  | cons hstored _ ih =>
    obtain ⟨name, k, t, hname, -, rfl⟩ := hstored
    rw [List.forall_mem_cons] at hm
    rw [hm.1.plain.zipName?] at hname
    rw [List.map_cons, List.map_cons, zipEntry_name, ← Option.some.inj hname, ih hm.2]

theorem Packed.names {archive : Archive Content} (h : Packed fs cwd members archive)
    (hm : ∀ m ∈ members, Storable fs cwd m) : archive.names = members.map (·.name) := by
  cases archive with
  | zip entries => exact ZipPacked.names h hm
  | tar entries => exact TarPacked.names h hm
  | gzip label stamp entries => exact TarPacked.names h hm
  | zstd checksum windowLog entries => exact TarPacked.names h hm

end Bundle

namespace CommandLine

open TabPackager.Bundle

variable {workspace : Path} {l : Layout} {there : Bool}

end CommandLine

end TabPackager
