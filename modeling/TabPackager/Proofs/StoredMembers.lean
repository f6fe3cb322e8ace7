import TabPackager.Bundle.Write
import TabPackager.Proofs.CoherentFiles
import TabPackager.Proofs.KeptEntries
import Mathlib.Data.List.Forall2

/-!
# Members as they are stored

The relation between members and the entries of an archive into which they have been packed: each
entry is made of what the member's path showed at some time at which all entries of a given file
system stood. Nothing is said about a path that leads nowhere there.
-/

namespace TabPackager.Bundle

open FileSystem

variable {fs a b : FileSystem} {cwd : Location} {p : Path} {s : Examined} {loc : Location}
  {i : Nat} {k : Content} {t : Int}

/-- What a path has shown, its last link not followed, where all entries of the file system
stood. -/
def Seen (fs : FileSystem) (cwd : Location) (p : Path) (s : Examined) : Prop :=
  ∀ loc e, fs.lstat cwd p.text = .ok (loc, e) → ∃ there, s = FileOp.examineEntry there e

/-- What has been read from a path where all entries of the file system stood. -/
def Got (fs : FileSystem) (cwd : Location) (p : Path) (k : Content) (t : Int) : Prop :=
  ∀ k' t', fs.contentOf cwd p.text = .ok (k', t') → k = k' ∧ t = t'

theorem Seen.of_examine (hk : EntriesKept a b) {now : Int} {b' : FileSystem}
    (h : (FileOp.examine p).perform cwd now b = (.ok s, b')) : Seen a cwd p s := by
  intro loc e he
  refine ⟨b, ?_⟩
  have hreply : (b.lstat cwd p.text).map (fun found => FileOp.examineEntry b found.2) = .ok s :=
    congrArg Prod.fst h
  rw [hk.lstat he] at hreply
  exact (Except.ok.inj hreply).symm

theorem Got.of_contentOf (hk : EntriesKept a b) {now : Int} {b' : FileSystem}
    (h : (FileOp.contentOf p).perform cwd now b = (.ok (k, t), b')) : Got a cwd p k t := by
  intro k' t' hc
  have hreply : b.contentOf cwd p.text = .ok (k, t) := congrArg Prod.fst h
  obtain ⟨loc, i, hs⟩ := contentOf_eq_ok.mp hc
  rw [contentOf_eq_ok.mpr ⟨loc, i, hk.stat hs⟩] at hreply
  cases hreply
  exact ⟨rfl, rfl⟩

theorem Seen.of_kept (hk : EntriesKept a b) (h : Seen b cwd p s) : Seen a cwd p s :=
  fun loc e he => h loc e (hk.lstat he)

theorem Got.of_kept (hk : EntriesKept a b) (h : Got b cwd p k t) : Got a cwd p k t := by
  intro k' t' hc
  obtain ⟨loc, i, hs⟩ := contentOf_eq_ok.mp hc
  exact h k' t' (contentOf_eq_ok.mpr ⟨loc, i, hk.stat hs⟩)

theorem Seen.file (h : Seen fs cwd p s) (hl : fs.lstat cwd p.text = .ok (loc, .file i k t)) :
    ∃ names, s = .file i names k t := by
  obtain ⟨there, hs⟩ := h _ _ hl
  exact ⟨_, hs⟩

theorem Seen.link {target : String} (h : Seen fs cwd p s)
    (hl : fs.lstat cwd p.text = .ok (loc, .link target t)) : s = .link target t := by
  obtain ⟨there, hs⟩ := h _ _ hl
  exact hs

/-- The tar entries are those of the members, given the files that have been stored before. -/
inductive TarPacked (fs : FileSystem) (cwd : Location) :
    List (Nat × String) → List Member → List (TarEntry Content) → Prop
  | nil (stored : List (Nat × String)) : TarPacked fs cwd stored [] []
  | skip {stored : List (Nat × String)} {m : Member} {members : List Member}
      {entries : List (TarEntry Content)} {s : Examined} (seen : Seen fs cwd m.path s)
      (none : tarEntry? stored m.name s = none) (rest : TarPacked fs cwd stored members entries) :
      TarPacked fs cwd stored (m :: members) entries
  | store {stored : List (Nat × String)} {m : Member} {members : List Member}
      {entries : List (TarEntry Content)} {s : Examined} {e : TarEntry Content}
      (seen : Seen fs cwd m.path s) (some : tarEntry? stored m.name s = some e)
      (rest : TarPacked fs cwd (noteStored stored m.name e s) members entries) :
      TarPacked fs cwd stored (m :: members) (e :: entries)

def ZipPacked (fs : FileSystem) (cwd : Location) (members : List Member)
    (entries : List (ZipEntry Content)) : Prop :=
  List.Forall₂ (fun m e => ∃ name k t, zipName? m.name = some name ∧ Got fs cwd m.path k t ∧
    e = zipEntry name k t) members entries

def Packed (fs : FileSystem) (cwd : Location) (members : List Member) : Archive Content → Prop
  | .zip entries => ZipPacked fs cwd members entries
  | .tar entries => TarPacked fs cwd [] members entries
  | .gzip _ _ entries => TarPacked fs cwd [] members entries
  | .zstd _ _ entries => TarPacked fs cwd [] members entries

theorem TarPacked.of_kept (hk : EntriesKept a b) {stored : List (Nat × String)}
    {members : List Member} {entries : List (TarEntry Content)}
    (h : TarPacked b cwd stored members entries) : TarPacked a cwd stored members entries := by
  induction h with
  | nil stored => exact .nil stored
  | skip seen none rest ih => exact .skip (seen.of_kept hk) none ih
  | store seen some rest ih => exact .store (seen.of_kept hk) some ih

theorem ZipPacked.of_kept (hk : EntriesKept a b) {members : List Member}
    {entries : List (ZipEntry Content)} (h : ZipPacked b cwd members entries) :
    ZipPacked a cwd members entries := by
  refine List.Forall₂.imp ?_ h
  rintro m e ⟨name, k, t, hn, hg, he⟩
  exact ⟨name, k, t, hn, hg.of_kept hk, he⟩

theorem Packed.of_kept (hk : EntriesKept a b) {members : List Member}
    {archive : Archive Content} (h : Packed b cwd members archive) :
    Packed a cwd members archive := by
  cases archive with
  | zip entries => exact ZipPacked.of_kept hk h
  | tar entries => exact TarPacked.of_kept hk h
  | gzip label stamp entries => exact TarPacked.of_kept hk h
  | zstd checksum windowLog entries => exact TarPacked.of_kept hk h

theorem zipEntry_name (name : String) (k : Content) (t : Int) :
    (zipEntry name k t).name = name := by
  unfold zipEntry
  dsimp only
  split
  · rfl
  · split <;> rfl

theorem zipEntry_content (name : String) (k : Content) (t : Int) :
    (zipEntry name k t).content =
      if name.toList.getLast? = some '/' then .bytes ByteArray.empty else k := by
  unfold zipEntry
  simp only
  split
  · rfl
  · split <;> rfl

theorem tarEntry?_link (stored : List (Nat × String)) (name target : String) (t : Int) :
    tarEntry? stored name (.link target t) = some ⟨withoutRoot name, t, .symlink target⟩ := rfl

/-- A file is stored with its content and noted, or as a link to the name that is noted for
it. -/
theorem tarEntry?_file (stored : List (Nat × String)) (name : String) (i names : Nat)
    (k : Content) (t : Int) :
    ∃ e, tarEntry? stored name (.file i names k t) = some e ∧ e.name = withoutRoot name ∧
      (e.body = .file (contentSize k) k ∧
          noteStored stored name e (.file i names k t) = (i, withoutRoot name) :: stored ∨
        ∃ first, stored.lookup i = some first ∧ first ≠ withoutRoot name ∧
          e.body = .hardlink first ∧ noteStored stored name e (.file i names k t) = stored) := by
  have hfile : noteStored stored name ⟨withoutRoot name, t, .file (contentSize k) k⟩
      (.file i names k t) = (i, withoutRoot name) :: stored := rfl
  unfold tarEntry?
  dsimp only
  split
  · next first hfirst =>
    split
    · exact ⟨_, rfl, rfl, .inl ⟨rfl, hfile⟩⟩
    · next hne =>
      have hlookup : stored.lookup i = some first := by
        split at hfirst
        · exact hfirst
        · cases hfirst
      exact ⟨_, rfl, rfl, .inr ⟨first, hlookup, hne, rfl, rfl⟩⟩
  · exact ⟨_, rfl, rfl, .inl ⟨rfl, hfile⟩⟩

variable {stored : List (Nat × String)} {P Q : String → Content → Prop}

/-- Each name that is noted for a file has the property with the file's content. -/
def Noted (fs : FileSystem) (stored : List (Nat × String)) (P : String → Content → Prop) :
    Prop :=
  ∀ i n, stored.lookup i = some n → ∃ loc k t, fs.lookup loc = some (.file i k t) ∧ P n k

theorem Noted.nil (fs : FileSystem) (P : String → Content → Prop) : Noted fs [] P := nofun

theorem Noted.imp (h : Noted fs stored P) (hpq : ∀ n k, P n k → Q n k) :
    Noted fs stored Q := by
  intro i n hn
  obtain ⟨loc, k, t, hl, hp⟩ := h i n hn
  exact ⟨loc, k, t, hl, hpq n k hp⟩

theorem Noted.note (h : Noted fs stored P) (hl : fs.lookup loc = some (.file i k t))
    {name : String} (hp : P name k) : Noted fs ((i, name) :: stored) P := by
  intro j n hn
  by_cases hj : j = i
  · subst hj
    rw [List.lookup_cons_self] at hn
    obtain rfl := Option.some.inj hn
    exact ⟨loc, k, t, hl, hp⟩
  · rw [List.lookup_cons, beq_eq_false_iff_ne.mpr hj] at hn
    exact h j n hn

theorem Noted.of_lookup (h : Noted fs stored P) (hc : fs.Coherent) {name : String}
    (hn : stored.lookup i = some name) (hl : fs.lookup loc = some (.file i k t)) :
    P name k := by
  obtain ⟨loc', k', t', hl', hp⟩ := h i name hn
  obtain ⟨rfl, -⟩ := hc loc' loc i k' k t' t hl' hl
  exact hp

end TabPackager.Bundle
