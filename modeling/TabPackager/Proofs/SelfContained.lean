import TabPackager.Proofs.ReturnedCalls

/-!
# Archives that stand on their own

A bundle stands on its own when each entry carries the bytes of the file to which its member's
path led. A zip archive is written through links and always does, except for a name that it takes
for that of a directory. A tar archive stores a path that is a link as a link, so that it stands
on its own exactly when no member's path is one.
-/

namespace TabPackager

variable {β : Type}

/-- The entry is a file of the content, or a link to the name of an earlier one that is. -/
def TarEntry.Carries (earlier : List (TarEntry β)) (k : β) (e : TarEntry β) : Prop :=
  (∃ size, e.body = .file size k) ∨
    ∃ first ∈ earlier, e.body = .hardlink first.name ∧ ∃ size, first.body = .file size k

/-- The entry is a file of the content, and not taken for a directory. -/
def ZipEntry.Carries (k : β) (e : ZipEntry β) : Prop :=
  e.name.toList.getLast? ≠ some '/' ∧ e.content = k

/-- The entries carry the contents one by one, given the entries before them. -/
inductive TarCarries : List (TarEntry β) → List β → List (TarEntry β) → Prop
  | nil (earlier : List (TarEntry β)) : TarCarries earlier [] []
  | cons {earlier : List (TarEntry β)} {k : β} {ks : List β} {e : TarEntry β}
      {es : List (TarEntry β)} (first : e.Carries earlier k)
      (rest : TarCarries (earlier ++ [e]) ks es) : TarCarries earlier (k :: ks) (e :: es)

namespace Archive

def Carries (ks : List β) : Archive β → Prop
  | zip entries => List.Forall₂ ZipEntry.Carries ks entries
  | tar entries => TarCarries [] ks entries
  | gzip _ _ entries => TarCarries [] ks entries
  | zstd _ _ entries => TarCarries [] ks entries

def HasSymlink : Archive β → Prop
  | zip _ => False
  | tar entries => ∃ e ∈ entries, ∃ target, e.body = .symlink target
  | gzip _ _ entries => ∃ e ∈ entries, ∃ target, e.body = .symlink target
  | zstd _ _ entries => ∃ e ∈ entries, ∃ target, e.body = .symlink target

end Archive

namespace Bundle

open FileSystem TabPackager.Task

section

variable {fs : FileSystem} {cwd : Location} {members : List Member} {ks : List Content}

def IsLink (fs : FileSystem) (cwd : Location) (p : Path) : Prop :=
  ∃ loc target t, fs.lstat cwd p.text = .ok (loc, .link target t)

/-- The content is that of the file to which the member's path leads. -/
def RefersTo (fs : FileSystem) (cwd : Location) (m : Member) (k : Content) : Prop :=
  ∃ t, fs.contentOf cwd m.path.text = .ok (k, t)

theorem Seen.cases {p : Path} {s : Examined} (h : Seen fs cwd p s) {k : Content} {t : Int}
    (hk : fs.contentOf cwd p.text = .ok (k, t)) :
    (¬IsLink fs cwd p ∧ ∃ loc i names, fs.lookup loc = some (.file i k t) ∧
        s = .file i names k t) ∨
      IsLink fs cwd p ∧ ∃ target m, s = .link target m := by
  obtain ⟨loc, i, hs⟩ := contentOf_eq_ok.mp hk
  rcases lstat_of_stat hs with hl | ⟨loc', target, m, hl⟩
  · obtain ⟨names, hfile⟩ := h.file hl
    refine .inl ⟨?_, loc, i, names, (lstat_eq_ok.mp hl).2, hfile⟩
    rintro ⟨loc', target, m, hl'⟩
    cases hl.symm.trans hl'
  · exact .inr ⟨⟨loc', target, m, hl⟩, target, m, h.link hl⟩

def StoredAs (earlier : List (TarEntry Content)) (name : String) (k : Content) : Prop :=
  ∃ e ∈ earlier, e.name = name ∧ ∃ size, e.body = .file size k

theorem StoredAs.append {earlier : List (TarEntry Content)} {name : String} {k : Content}
    (h : StoredAs earlier name k) (es : List (TarEntry Content)) :
    StoredAs (earlier ++ es) name k := by
  obtain ⟨e, he, hname⟩ := h
  exact ⟨e, List.mem_append_left es he, hname⟩

theorem not_carries_symlink {earlier : List (TarEntry Content)} {k : Content}
    {e : TarEntry Content} {target : String} (he : e.body = .symlink target) :
    ¬e.Carries earlier k := by
  rintro (⟨size, hfile⟩ | ⟨first, -, hlink, -⟩)
  · cases he.symm.trans hfile
  · cases he.symm.trans hlink

theorem tarCarries_cons_iff {earlier : List (TarEntry Content)} {k : Content}
    {e : TarEntry Content} {es : List (TarEntry Content)} :
    TarCarries earlier (k :: ks) (e :: es) ↔
      e.Carries earlier k ∧ TarCarries (earlier ++ [e]) ks es := by
  constructor
  · rintro (_ | ⟨hfirst, hrest⟩)
    exact ⟨hfirst, hrest⟩
  · rintro ⟨hfirst, hrest⟩
    exact .cons hfirst hrest

/-- The entry of a member that refers to a file: a link is stored as a link, and a file with its
content or as a link to the name that is noted for it. -/
theorem Seen.entry {m : Member} {s : Examined} {k : Content} (h : Seen fs cwd m.path s)
    (hm : RefersTo fs cwd m k) (stored : List (Nat × String)) :
    ∃ e, tarEntry? stored m.name s = some e ∧
      (IsLink fs cwd m.path ∧ (∃ target, e.body = .symlink target) ∨
        ¬IsLink fs cwd m.path ∧ ∃ loc i t, fs.lookup loc = some (.file i k t) ∧
          e.name = withoutRoot m.name ∧
          ((∃ size, e.body = .file size k) ∧
              noteStored stored m.name e s = (i, withoutRoot m.name) :: stored ∨
            ∃ first, stored.lookup i = some first ∧ e.body = .hardlink first ∧
              noteStored stored m.name e s = stored)) := by
  obtain ⟨t, hm⟩ := hm
  rcases h.cases hm with ⟨hlink, loc, i, names, hl, rfl⟩ | ⟨hlink, target, time, rfl⟩
  · obtain ⟨e, he, hname, hbody⟩ := tarEntry?_file stored m.name i names k t
    refine ⟨e, he, .inr ⟨hlink, loc, i, t, hl, hname, ?_⟩⟩
    rcases hbody with ⟨hfile, hnoted⟩ | ⟨first, hfirst, -, hlinked, hnoted⟩
    · exact .inl ⟨⟨_, hfile⟩, hnoted⟩
    · exact .inr ⟨first, hfirst, hlinked, hnoted⟩
  · exact ⟨_, tarEntry?_link stored m.name target time, .inl ⟨hlink, target, rfl⟩⟩

theorem TarPacked.carries_iff (hc : fs.Coherent) {stored : List (Nat × String)}
    {entries : List (TarEntry Content)} (h : TarPacked fs cwd stored members entries)
    (hk : List.Forall₂ (RefersTo fs cwd) members ks) {earlier : List (TarEntry Content)}
    (hs : Noted fs stored (StoredAs earlier)) :
    TarCarries earlier ks entries ↔ ∀ m ∈ members, ¬IsLink fs cwd m.path := by
  induction h generalizing ks earlier with
  | nil stored =>
    cases hk
    exact ⟨fun _ => nofun, fun _ => .nil earlier⟩
  | @skip stored m members entries s seen hnone _ _ =>
    cases hk with
    | cons hm _ =>
      obtain ⟨e, he, -⟩ := seen.entry hm stored
      cases hnone.symm.trans he
  | @store stored m members entries s e seen hsome _ ih =>
    cases hk with
    | @cons _ k _ ks hm hk =>
      rw [tarCarries_cons_iff, List.forall_mem_cons]
      have hkept : Noted fs stored (StoredAs (earlier ++ [e])) :=
        hs.imp fun n k' hn => hn.append [e]
      obtain ⟨e', he', hentry⟩ := seen.entry hm stored
      obtain rfl : e = e' := Option.some.inj (hsome.symm.trans he')
      rcases hentry with ⟨hlink, target, hsymlink⟩ | ⟨hlink, loc, i, t, hl, hname, hbody⟩
      · have hnot : ¬e.Carries earlier k := not_carries_symlink hsymlink
        exact ⟨fun h => absurd h.1 hnot, fun h => absurd hlink h.1⟩
      · rcases hbody with ⟨⟨size, hfile⟩, hnoted⟩ | ⟨first, hfirst, hlinked, hnoted⟩
        · have hself : StoredAs (earlier ++ [e]) (withoutRoot m.name) k :=
            ⟨e, by simp, hname, size, hfile⟩
          rw [hnoted] at ih
          have hrest := ih hk (hkept.note hl hself)
          exact and_congr ⟨fun _ => hlink, fun _ => .inl ⟨size, hfile⟩⟩ hrest
        · obtain ⟨e₁, he₁, rfl, hfile⟩ := hs.of_lookup hc hfirst hl
          rw [hnoted] at ih
          have hrest := ih hk hkept
          exact and_congr ⟨fun _ => hlink, fun _ => .inr ⟨e₁, he₁, hlinked, hfile⟩⟩ hrest

theorem TarPacked.symlink_iff {stored : List (Nat × String)}
    {entries : List (TarEntry Content)} (h : TarPacked fs cwd stored members entries)
    (hk : List.Forall₂ (RefersTo fs cwd) members ks) :
    (∃ e ∈ entries, ∃ target, e.body = .symlink target) ↔
      ∃ m ∈ members, IsLink fs cwd m.path := by
  induction h generalizing ks with
  | nil stored => simp
  | @skip stored m members entries s seen hnone _ _ =>
    cases hk with
    | cons hm _ =>
      obtain ⟨e, he, -⟩ := seen.entry hm stored
      cases hnone.symm.trans he
  | @store stored m members entries s e seen hsome _ ih =>
    cases hk with
    | @cons _ k _ ks hm hk =>
      rw [List.exists_mem_cons_iff, List.exists_mem_cons_iff, ih hk]
      refine or_congr_left' fun _ => ?_
      obtain ⟨e', he', hentry⟩ := seen.entry hm stored
      obtain rfl : e = e' := Option.some.inj (hsome.symm.trans he')
      rcases hentry with ⟨hlink, hsymlink⟩ | ⟨hlink, -, i, -, -, -, hbody⟩
      · exact ⟨fun _ => hlink, fun _ => hsymlink⟩
      · refine ⟨?_, fun h => absurd h hlink⟩
        rintro ⟨target, hsymlink⟩
        rcases hbody with ⟨⟨size, hfile⟩, -⟩ | ⟨first, -, hlinked, -⟩
        · cases hfile.symm.trans hsymlink
        · cases hlinked.symm.trans hsymlink

theorem ZipPacked.carries_iff {entries : List (ZipEntry Content)}
    (h : ZipPacked fs cwd members entries) (hk : List.Forall₂ (RefersTo fs cwd) members ks) :
    List.Forall₂ ZipEntry.Carries ks entries ↔
      ∀ m ∈ members, ∀ name, zipName? m.name = some name → name.toList.getLast? ≠ some '/' := by
  induction h generalizing ks with
  | nil =>
    cases hk
    exact ⟨fun _ => nofun, fun _ => .nil⟩
  | @cons m e members entries hstored _ ih =>
    cases hk with
    | @cons _ k _ ks hm hk =>
      obtain ⟨name, k', t', hname, hgot, rfl⟩ := hstored
      obtain ⟨t, hm⟩ := hm
      obtain rfl : k' = k := (hgot k t hm).1
      rw [List.forall₂_cons, List.forall_mem_cons, ih hk]
      refine and_congr_left' ?_
      rw [ZipEntry.Carries, zipEntry_name, zipEntry_content]
      constructor
      · rintro ⟨hlast, -⟩ name' hname'
        cases hname.symm.trans hname'
        exact hlast
      · intro h
        have hlast := h name hname
        exact ⟨hlast, if_neg hlast⟩

/-- An archive of the format carries the bytes of the file to which the member's path leads. -/
def Member.Carried (fs : FileSystem) (cwd : Location) (format : Format) (m : Member) : Prop :=
  if format = .zip then
    ∀ name, zipName? m.name = some name → name.toList.getLast? ≠ some '/'
  else ¬IsLink fs cwd m.path

theorem Packed.carries_iff (hc : fs.Coherent) {archive : Archive Content}
    (h : Packed fs cwd members archive) (hk : List.Forall₂ (RefersTo fs cwd) members ks) :
    archive.Carries ks ↔ ∀ m ∈ members, m.Carried fs cwd archive.format := by
  cases archive with
  | zip entries => exact ZipPacked.carries_iff h hk
  | tar entries => exact TarPacked.carries_iff hc h hk (Noted.nil fs _)
  | gzip label stamp entries => exact TarPacked.carries_iff hc h hk (Noted.nil fs _)
  | zstd checksum windowLog entries => exact TarPacked.carries_iff hc h hk (Noted.nil fs _)

theorem Packed.symlink_iff {archive : Archive Content} (h : Packed fs cwd members archive)
    (hk : List.Forall₂ (RefersTo fs cwd) members ks) :
    archive.HasSymlink ↔ archive.format ≠ .zip ∧ ∃ m ∈ members, IsLink fs cwd m.path := by
  have htar {entries : List (TarEntry Content)} (h : TarPacked fs cwd [] members entries)
      (hf : archive.format ≠ .zip) :
      (∃ e ∈ entries, ∃ target, e.body = .symlink target) ↔
        archive.format ≠ .zip ∧ ∃ m ∈ members, IsLink fs cwd m.path := by
    rw [h.symlink_iff hk]
    exact (and_iff_right hf).symm
  cases archive with
  | zip entries => exact ⟨False.elim, fun h => h.1 rfl⟩
  | tar entries => exact htar h nofun
  | gzip label stamp entries => exact htar h nofun
  | zstd checksum windowLog entries => exact htar h nofun

theorem exists_refersTo (h : ∀ m ∈ members, fs.isFile cwd m.path.text = .ok true) :
    ∃ ks, List.Forall₂ (RefersTo fs cwd) members ks := by
  induction members with
  | nil => exact ⟨[], .nil⟩
  | cons m members ih =>
    rw [List.forall_mem_cons] at h
    obtain ⟨ks, hks⟩ := ih h.2
    obtain ⟨loc, i, k, t, hs⟩ := isFile_eq_true.mp h.1
    exact ⟨k :: ks, .cons ⟨t, contentOf_eq_ok.mpr ⟨loc, i, hs⟩⟩ hks⟩

end

variable {cwd : Path} {before after : FileSystem} {attempts : List Attempt}

/-- Over whole histories: the archive of a call that returned carries the bytes of the files to
which the members' paths led exactly when each member can be carried by the format, and has a
symbolic link exactly when it is a tar archive of a member whose path was one. -/
theorem history_carries (h : History cwd before attempts after) (hc : before.Coherent) :
    ∀ a ∈ attempts, a.Fair → a.result = .ok () → ∃ format archive ks,
      a.Leaves cwd.parts format archive ∧
      List.Forall₂ (RefersTo a.before cwd.parts) a.request.members ks ∧
      (archive.Carries ks ↔
        ∀ m ∈ a.request.members, m.Carried a.before cwd.parts format) ∧
      (archive.HasSymlink ↔
        format ≠ .zip ∧ ∃ m ∈ a.request.members, IsLink a.before cwd.parts m.path) := by
  intro a ha hf hr
  have hs : a.Sound cwd := h.sound hc a ha
  have hfiles : ∀ m ∈ a.request.members,
      a.before.isFile cwd.parts m.path.text = .ok true := by
    intro m hm
    by_contra hn
    exact ((hs.lawful hf).notFile m hm hn).1 hr
  obtain ⟨ks, hks⟩ := exists_refersTo hfiles
  obtain ⟨format, archive, hleaves, hpacked⟩ := hs.packed hf hr
  obtain rfl := hleaves.format
  exact ⟨archive.format, archive, ks, hleaves, hks, hpacked.carries_iff hs.coherent hks,
    hpacked.symlink_iff hks⟩

def linkedFiles : FileSystem where
  entries :=
    [(["real.tab"], .file 0 (.bytes ⟨#[84, 65, 66]⟩) 7), (["app.tab"], .link "real.tab" 7)]

def linkedMembers : List Member := [⟨Path.parse "/app.tab", "app.tab"⟩]

def linkedWrite (target : String) : Attempt :=
  Request.attempt (Path.parse "/") ⟨sampleScratch, {}, linkedMembers, Path.parse target, 9⟩
    linkedFiles

theorem linkedFiles_coherent : linkedFiles.Coherent := by
  refine Coherent.of_entries (fun _ => (.bytes ⟨#[84, 65, 66]⟩, 7)) ?_
  simp [linkedFiles]

theorem linkedWrite_returns : ∀ target ∈ ["/o.zip", "/o.tar"],
    Cleaned (linkedWrite target).events ∧ (linkedWrite target).result = .ok () := by
  have hrun : ∀ target ∈ ["/o.zip", "/o.tar"], Cleaned (linkedWrite target).events ∧
      (linkedWrite target).result.toOption = some () := by
    decide +kernel
  intro target ht
  obtain ⟨hcleaned, hok⟩ := hrun target ht
  exact ⟨hcleaned, eq_ok_of_toOption hok⟩

theorem isLink_linkedMember : IsLink linkedFiles [] (Path.parse "/app.tab") := by
  have hr : linkedFiles.resolve false [] (Path.parse "/app.tab").text =
      .ok (.found ["app.tab"]) := by
    decide
  exact ⟨["app.tab"], "real.tab", 7, lstat_eq_ok.mpr ⟨hr, rfl⟩⟩

theorem history_carries_of_zipped :
    ∃ archive ks, (linkedWrite "/o.zip").Leaves [] .zip archive ∧
      List.Forall₂ (RefersTo linkedFiles []) linkedMembers ks ∧
      archive.Carries ks ∧ ¬archive.HasSymlink := by
  obtain ⟨hcleaned, hr⟩ := linkedWrite_returns "/o.zip" (by simp)
  obtain ⟨fs', h⟩ := history_attemptsOf (Path.parse "/")
    [⟨sampleScratch, {}, linkedMembers, Path.parse "/o.zip", 9⟩] linkedFiles
  obtain ⟨format, archive, ks, hleaves, hks, hcarries, hsymlink⟩ :=
    history_carries h linkedFiles_coherent (linkedWrite "/o.zip") List.mem_cons_self
      ⟨sampleScratch_drawn, hcleaned⟩ hr
  have hzip : format = .zip := by
    have hf : formatOf (Path.parse "/o.zip") = .ok .zip := by decide
    exact Except.ok.inj (hleaves.supported.symm.trans hf)
  subst hzip
  refine ⟨archive, ks, hleaves, hks, hcarries.mpr ?_, fun h => (hsymlink.mp h).1 rfl⟩
  intro m hm name hname
  obtain rfl := List.mem_singleton.mp hm
  have hstored : zipName? "app.tab" = some "app.tab" := by decide
  cases hstored.symm.trans hname
  decide

/-- A member that is a link to a file passes the check, and a tar archive stores the link. -/
theorem linkedMember_not_carried :
    linkedFiles.isFile [] "/app.tab" = .ok true ∧
      ∃ archive ks, (linkedWrite "/o.tar").Leaves [] .tar archive ∧
        List.Forall₂ (RefersTo linkedFiles []) linkedMembers ks ∧
        archive.HasSymlink ∧ ¬archive.Carries ks := by
  have hfile : linkedFiles.isFile [] "/app.tab" = .ok true := by decide
  obtain ⟨hcleaned, hr⟩ := linkedWrite_returns "/o.tar" (by simp)
  have hs : (linkedWrite "/o.tar").Sound (Path.parse "/") :=
    ⟨linkedFiles_coherent, Request.execution_attempt _ _ _⟩
  obtain ⟨format, archive, hleaves, hpacked⟩ := hs.packed ⟨sampleScratch_drawn, hcleaned⟩ hr
  have hfiles : ∀ m ∈ linkedMembers, linkedFiles.isFile [] m.path.text = .ok true := by
    decide
  obtain ⟨ks, hks⟩ := exists_refersTo hfiles
  have htar : archive.format = .tar := by
    have hf : formatOf (Path.parse "/o.tar") = .ok .tar := by decide
    rw [hleaves.format]
    exact Except.ok.inj (hleaves.supported.symm.trans hf)
  obtain rfl := hleaves.format
  rw [htar] at hleaves
  have hlink := isLink_linkedMember
  have hsymlink := (hpacked.symlink_iff hks).mpr
    ⟨by rw [htar]; decide, _, List.mem_cons_self, hlink⟩
  refine ⟨hfile, archive, ks, hleaves, hks, hsymlink, fun hcarries => ?_⟩
  have hcarried := (hpacked.carries_iff hs.coherent hks).mp hcarries _ List.mem_cons_self
  rw [Member.Carried, htar, if_neg (by decide)] at hcarried
  exact hcarried hlink

end Bundle

end TabPackager
