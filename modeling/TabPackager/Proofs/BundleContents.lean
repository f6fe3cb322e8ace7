import TabPackager.Archive.Contents
import TabPackager.Proofs.ReturnedCalls
import Mathlib.Data.List.TakeWhile

/-!
# Contents of bundles

What is got out of a bundle is what was put in: for files of distinct plain names, the contents
of the archive are the names and the bytes of the members, in order, whatever the format. A tar
archive stores a file that comes again under another name as a link to the first, and gives its
bytes back by way of the link.
-/

namespace TabPackager.Bundle

open FileSystem TabPackager.Task

structure IsFileName (s : String) : Prop where
  ordinary : IsOrdinary s
  noSlash : '/' ∉ s.toList
  noNul : '\x00' ∉ s.toList
  short : s.utf8ByteSize ≤ nameLimit

instance : DecidablePred IsFileName := fun s =>
  decidable_of_iff
    ((s ≠ "" ∧ s ≠ "." ∧ s ≠ "..") ∧ '/' ∉ s.toList ∧ '\x00' ∉ s.toList ∧
      s.utf8ByteSize ≤ nameLimit)
    ⟨fun h => ⟨h.1, h.2.1, h.2.2.1, h.2.2.2⟩, fun h => ⟨h.1, h.2, h.3, h.4⟩⟩

/-- The member is a file, not behind a link, and the item is its name and its content. -/
structure Itemized (fs : FileSystem) (cwd : Location) (m : Member) (x : String × Content) :
    Prop where
  name : x.1 = m.name
  plain : IsFileName m.name
  file : ∃ loc i t, fs.lstat cwd m.path.text = .ok (loc, .file i x.2 t)

section

variable {fs : FileSystem} {cwd : Location} {s : String}

theorem IsFileName.withoutRoot (h : IsFileName s) : withoutRoot s = s := by
  have hhead : s.toList.dropWhile (· == '/') = s.toList := by
    rw [List.dropWhile_eq_self_iff]
    intro hpos hslash
    have hmem : s.toList[0] ∈ s.toList := List.getElem_mem hpos
    rw [beq_iff_eq] at hslash
    exact h.noSlash (hslash ▸ hmem)
  rw [Bundle.withoutRoot, hhead, String.ofList_toList]

theorem IsFileName.headerText (h : IsFileName s) : TarEntry.headerText s = s := by
  have hall : s.toList.takeWhile (· != '\x00') = s.toList := by
    rw [List.takeWhile_eq_self_iff]
    intro c hc
    rw [bne_iff_ne]
    rintro rfl
    exact h.noNul hc
  rw [TarEntry.headerText, hall, String.ofList_toList]

theorem IsFileName.withoutSlashes (h : IsFileName s) : TarEntry.withoutSlashes s = s := by
  have hlast : s.toList.reverse.dropWhile (· == '/') = s.toList.reverse := by
    rw [List.dropWhile_eq_self_iff]
    intro hpos hslash
    have hmem : s.toList.reverse[0] ∈ s.toList.reverse := List.getElem_mem hpos
    rw [beq_iff_eq] at hslash
    rw [hslash, List.mem_reverse] at hmem
    exact h.noSlash hmem
  rw [TarEntry.withoutSlashes, hlast, List.reverse_reverse, String.ofList_toList]

theorem IsFileName.zipName? (h : IsFileName s) : zipName? s = some s := by
  have hcomponents : pathComponents s.toList = [s] := by
    have hpieces := pieces_of_not_mem h.noSlash
    rw [pieces] at hpieces
    rw [pathComponents, hpieces]
    simp [h.ordinary.1, h.ordinary.2.1]
  have hanchor : Path.anchorOf s.toList = .relative := by
    unfold Path.anchorOf
    split
    · next hs => exact absurd (hs ▸ List.mem_cons_self) h.noSlash
    · next hs => exact absurd (hs ▸ List.mem_cons_self) h.noSlash
    · next hs => exact absurd (hs ▸ List.mem_cons_self) h.noSlash
    · rfl
  have hparts : (Path.parse s).normalize.parts = [s] := by
    change Path.foldDots _ [] (pathComponents s.toList) = [s]
    rw [hcomponents, Path.foldDots, if_neg h.ordinary.2.2, Path.foldDots]
    rfl
  have htext : (Path.parse s).normalize.text = s := by
    have hrelative : (Path.parse s).normalize.anchor = .relative := hanchor
    rw [Path.text, hparts, hrelative, if_neg (by simp)]
    exact String.empty_append
  have habsolute : (Path.parse s).normalize.isAbsolute = false := by
    change (Path.anchorOf s.toList != .relative) = false
    rw [hanchor]
    rfl
  unfold Bundle.zipName?
  dsimp only
  rw [habsolute, htext, if_neg Bool.false_ne_true, h.headerText]
  exact if_neg (by simp [h.ordinary.1])

theorem IsFileName.storedName {e : TarEntry Content} (h : IsFileName e.name) :
    e.storedName = e.name := by
  unfold TarEntry.storedName
  split
  · exact h.headerText
  · exact h.withoutSlashes

theorem IsFileName.storedTarget {e : TarEntry Content} (h : IsFileName s)
    (he : e.body = .hardlink s) : e.storedTarget = s := by
  have hlink : e.linkTarget = s := by
    rw [TarEntry.linkTarget, he]
  unfold TarEntry.storedTarget
  rw [hlink]
  split
  · exact h.headerText
  · rfl

theorem ZipPacked.contents {members : List Member} {entries : List (ZipEntry Content)}
    (h : ZipPacked fs cwd members entries) {items : List (String × Content)}
    (hi : List.Forall₂ (Itemized fs cwd) members items) :
    entries.map (fun e => (e.name, e.content)) = items := by
  induction h generalizing items with
  | nil =>
    cases hi
    rfl
  | @cons m e members entries hstored _ ih =>
    cases hi with
    | @cons _ x _ items hitem hi =>
      obtain ⟨name, k, t, hname, hgot, rfl⟩ := hstored
      obtain ⟨loc, i, t', hl⟩ := hitem.file
      rw [hitem.plain.zipName?] at hname
      obtain rfl := Option.some.inj hname
      have hstat := stat_of_lstat hl nofun
      have hk : k = x.2 := (hgot _ _ (contentOf_eq_ok.mpr ⟨loc, i, hstat⟩)).1
      have hlast : m.name.toList.getLast? ≠ some '/' :=
        fun hs => hitem.plain.noSlash (List.mem_of_getLast? hs)
      rw [List.map_cons, ih hi, zipEntry_name, zipEntry_content, if_neg hlast, hk, ← hitem.name]

/-- The name is a plain one under which the content is read back. -/
def ReadBack (before : List (String × Content)) (name : String) (k : Content) : Prop :=
  IsFileName name ∧ before.lookup name = some k

theorem ReadBack.keep {before : List (String × Content)} {name : String} {k : Content}
    (h : ReadBack before name k) {name' : String} (hn : before.lookup name' = none)
    (k' : Content) : ReadBack ((name', k') :: before) name k := by
  refine ⟨h.1, ?_⟩
  have hne : name ≠ name' := by
    rintro rfl
    cases hn.symm.trans h.2
  rw [List.lookup_cons, beq_eq_false_iff_ne.mpr hne]
  exact h.2

theorem TarPacked.contents (hc : fs.Coherent) {stored : List (Nat × String)}
    {members : List Member} {entries : List (TarEntry Content)}
    (h : TarPacked fs cwd stored members entries) {items before : List (String × Content)}
    (hi : List.Forall₂ (Itemized fs cwd) members items)
    (hd : (items.map Prod.fst).Nodup) (hb : ∀ x ∈ items, before.lookup x.1 = none)
    (hs : Noted fs stored (ReadBack before)) :
    tarContents? before entries = some (before.reverse ++ items) := by
  induction h generalizing items before with
  | nil stored =>
    cases hi
    rw [tarContents?, List.append_nil]
  | skip seen hnone _ _ =>
    cases hi with
    | cons hitem _ =>
      obtain ⟨loc, i, t, hl⟩ := hitem.file
      obtain ⟨names, rfl⟩ := seen.file hl
      obtain ⟨e, he, -⟩ := tarEntry?_file _ _ i names _ t
      cases hnone.symm.trans he
  | @store stored m members entries s e seen hsome _ ih =>
    cases hi with
    | @cons _ x _ items hitem hi =>
      obtain ⟨name, k⟩ := x
      obtain rfl : name = m.name := hitem.name
      obtain ⟨loc, i, t, hl⟩ := hitem.file
      obtain ⟨names, rfl⟩ := seen.file hl
      have hlookup := (lstat_eq_ok.mp hl).2
      rw [List.map_cons, List.nodup_cons] at hd
      rw [List.forall_mem_cons] at hb
      have hfree : ∀ y ∈ items, ((m.name, k) :: before).lookup y.1 = none := by
        intro y hy
        have hne : y.1 ≠ m.name := fun he => hd.1 (he ▸ List.mem_map.mpr ⟨y, hy, rfl⟩)
        rw [List.lookup_cons, beq_eq_false_iff_ne.mpr hne]
        exact hb.2 y hy
      have hkept : Noted fs stored (ReadBack ((m.name, k) :: before)) :=
        hs.imp fun n k' hn => hn.keep hb.1 k
      obtain ⟨e', he', hname, hbody⟩ := tarEntry?_file stored m.name i names k t
      obtain rfl : e = e' := Option.some.inj (hsome.symm.trans he')
      rw [hitem.plain.withoutRoot] at hname hbody
      have hstored : e.storedName = m.name := by
        rw [← hname]
        exact IsFileName.storedName (hname ▸ hitem.plain)
      have hstep : tarContents? before (e :: entries) =
          tarContents? ((m.name, k) :: before) entries := by
        rcases hbody with ⟨hfile, -⟩ | ⟨first, hfirst, -, hlink, -⟩
        · rw [tarContents?, hfile, hstored]
        · obtain ⟨hplain, hread⟩ := hs.of_lookup hc hfirst hlookup
          rw [tarContents?, hlink]
          dsimp only
          rw [hplain.storedTarget hlink, hread, hstored]
      rw [hstep]
      have hnext : tarContents? ((m.name, k) :: before) entries =
          some (((m.name, k) :: before).reverse ++ items) := by
        rcases hbody with ⟨-, hnoted⟩ | ⟨first, -, -, -, hnoted⟩
        · rw [hnoted] at ih
          have hself : ReadBack ((m.name, k) :: before) m.name k :=
            ⟨hitem.plain, List.lookup_cons_self⟩
          exact ih hi hd.2 hfree (hkept.note hlookup hself)
        · rw [hnoted] at ih
          exact ih hi hd.2 hfree hkept
      rw [hnext, List.reverse_cons, List.append_assoc, List.singleton_append]

theorem Packed.contents (hc : fs.Coherent) {members : List Member} {archive : Archive Content}
    (h : Packed fs cwd members archive) {items : List (String × Content)}
    (hi : List.Forall₂ (Itemized fs cwd) members items)
    (hd : (items.map Prod.fst).Nodup) : archive.contents? = some items := by
  have htar {entries : List (TarEntry Content)} (h : TarPacked fs cwd [] members entries) :
      tarContents? [] entries = some items :=
    h.contents hc hi hd (fun _ _ => rfl) (Noted.nil fs _)
  cases archive with
  | zip entries => exact congrArg some (ZipPacked.contents h hi)
  | tar entries => exact htar h
  | gzip label stamp entries => exact htar h
  | zstd checksum windowLog entries => exact htar h

end

variable {cwd : Path} {before after : FileSystem} {attempts : List Attempt} {a : Attempt}

/-- A fault from outside the program: the storing or the compressing of the members goes wrong, or
an operation on files is refused. -/
inductive Attempt.IoFault (a : Attempt) : Fault → Prop
  | storing {k : Nat} {e : OsError} (hk : k < a.request.members.length)
      (h : a.request.mishaps.storing k = some e) : IoFault a (.os e)
  | compressing {reason : String} (hf : formatOf a.request.target = .ok .zstd)
      (h : a.request.mishaps.compressing = some reason) :
      IoFault a (.bundle (.compression a.request.target reason))
  | refused {o : FileOp} {why : Refusal} (h : lastRefusal? a.events = some (o, why)) :
      IoFault a (Fault.ofRefusal why (some o.files.1) o.files.2)

namespace Attempt

/-- With a known format, files for members and usable names, only the outside makes a call
fail. -/
theorem Sound.ioFault (h : a.Sound cwd) (hf : a.Fair) {format : Format}
    (hformat : formatOf a.request.target = .ok format)
    (hfiles : ∀ m ∈ a.request.members, a.before.isFile cwd.parts m.path.text = .ok true)
    (hnames : ∀ m ∈ a.request.members, zipName? m.name ≠ none) {f : Fault}
    (hr : a.result = .error f) : a.IoFault f := by
  rcases (h.lawful hf).explained f hr with hexpected | ⟨o, why, hlast, rfl⟩
  · cases hexpected with
    | unknownFormat he => cases hformat.symm.trans he
    | missingMember hm hn => cases (hfiles _ hm).symm.trans hn
    | storing hk he => exact .storing hk he
    | compressing hz he => exact .compressing hz he
    | emptyName _ hm hn => exact absurd hn (hnames _ hm)
  · exact .refused hlast

end Attempt

theorem Itemized.isFile {fs : FileSystem} {cwd : Location} {m : Member} {x : String × Content}
    (h : Itemized fs cwd m x) : fs.isFile cwd m.path.text = .ok true := by
  obtain ⟨loc, i, t, hl⟩ := h.file
  exact isFile_eq_true.mpr ⟨loc, i, x.2, t, stat_of_lstat hl nofun⟩

/-- Over whole histories: a call on files of distinct plain names fails for a reason from outside,
or leaves an archive of its format from which exactly the names and the contents of the members
are got, in order. The items do not depend on the format. -/
theorem history_contents (h : History cwd before attempts after) (hc : before.Coherent) :
    ∀ a ∈ attempts, a.Fair → ∀ format items, formatOf a.request.target = .ok format →
      List.Forall₂ (Itemized a.before cwd.parts) a.request.members items →
      (items.map Prod.fst).Nodup →
      (∃ f, a.result = .error f ∧ a.IoFault f) ∨
        ∃ archive, a.Leaves cwd.parts format archive ∧ archive.contents? = some items := by
  intro a ha hf format items hformat hi hd
  have hs : a.Sound cwd := h.sound hc a ha
  have hitem : ∀ m ∈ a.request.members, ∃ x, Itemized a.before cwd.parts m x := by
    intro m hm
    obtain ⟨n, hn, rfl⟩ := List.getElem_of_mem hm
    exact ⟨_, hi.get hn (hi.length_eq ▸ hn)⟩
  cases hr : a.result with
  | error f =>
    refine .inl ⟨f, rfl, hs.ioFault hf hformat (fun m hm => ?_) (fun m hm => ?_) hr⟩
    · obtain ⟨x, hx⟩ := hitem m hm
      exact hx.isFile
    · obtain ⟨x, hx⟩ := hitem m hm
      rw [hx.plain.zipName?]
      simp
  | ok u =>
    obtain ⟨format', archive, hleaves, hpacked⟩ := hs.packed hf hr
    obtain rfl : format = format' :=
      Except.ok.inj (hformat.symm.trans hleaves.supported)
    exact .inr ⟨archive, hleaves, hpacked.contents hs.coherent hi hd⟩

def tabContent : Content := .bytes ⟨#[84, 65, 66]⟩

def twoNamedFiles : FileSystem where
  entries :=
    [(["a.tab"], .file 0 tabContent 7), (["b.tab"], .file 0 tabContent 7),
      (["größe.tab"], .file 1 (.bytes ByteArray.empty) 8)]

def sampleMembers : List Member :=
  [⟨Path.parse "/a.tab", "a.tab"⟩, ⟨Path.parse "/b.tab", "b.tab"⟩,
    ⟨Path.parse "/a.tab", "again.tab"⟩, ⟨Path.parse "/größe.tab", "größe.tab"⟩]

def sampleItems : List (String × Content) :=
  [("a.tab", tabContent), ("b.tab", tabContent), ("again.tab", tabContent),
    ("größe.tab", .bytes ByteArray.empty)]

def sampleWrites : List Attempt :=
  ["/out/x.zip", "/out/x.tar", "/out/x.tgz", "/out/x.tar.zst"].map fun target =>
    Request.attempt (Path.parse "/") ⟨sampleScratch, {}, sampleMembers, Path.parse target, 9⟩
      twoNamedFiles

theorem history_contents_of_sample :
    sampleWrites.map (fun a => (formatOf a.request.target).toOption) =
        [some .zip, some .tar, some .gzip, some .zstd] ∧
      ∀ a ∈ sampleWrites, ∃ format archive,
        a.Leaves [] format archive ∧ archive.contents? = some sampleItems := by
  have hcoherent : twoNamedFiles.Coherent := by
    refine Coherent.of_entries
      (fun i => if i = 0 then (tabContent, 7) else (.bytes ByteArray.empty, 8)) ?_
    simp [twoNamedFiles]
  have hitem {m : Member} {x : String × Content} (loc : Location) (i : Nat) (t : Int)
      (hx : x.1 = m.name) (hn : IsFileName m.name)
      (hr : twoNamedFiles.resolve false [] m.path.text = .ok (.found loc))
      (hl : twoNamedFiles.lookup loc = some (.file i x.2 t)) :
      Itemized twoNamedFiles [] m x :=
    ⟨hx, hn, loc, i, t, lstat_eq_ok.mpr ⟨hr, hl⟩⟩
  have hitems : List.Forall₂ (Itemized twoNamedFiles []) sampleMembers sampleItems := by
    apply List.Forall₂.cons
    · exact hitem ["a.tab"] 0 7 rfl (by decide) (by decide) rfl
    apply List.Forall₂.cons
    · exact hitem ["b.tab"] 0 7 rfl (by decide) (by decide) rfl
    apply List.Forall₂.cons
    · exact hitem ["a.tab"] 0 7 rfl (by decide) (by decide) rfl
    apply List.Forall₂.cons
    · exact hitem ["größe.tab"] 1 8 rfl (by decide) (by decide) rfl
    exact .nil
  have hdistinct : (sampleItems.map Prod.fst).Nodup := by decide
  have hwrites : ∀ a ∈ sampleWrites, a.request.scratch = sampleScratch ∧ Cleaned a.events ∧
      a.result.toOption = some () ∧ (formatOf a.request.target).toOption.isSome := by
    decide +kernel
  refine ⟨by decide, fun a ha => ?_⟩
  obtain ⟨hscratch, hcleaned, hok, hsome⟩ := hwrites a ha
  have hf : a.Fair := by
    refine ⟨?_, hcleaned⟩
    rw [hscratch]
    exact sampleScratch_drawn
  obtain ⟨target, -, rfl⟩ := List.mem_map.mp ha
  obtain ⟨fs', h⟩ := history_attemptsOf (Path.parse "/")
    [⟨sampleScratch, {}, sampleMembers, Path.parse target, 9⟩] twoNamedFiles
  cases hformat : formatOf (Path.parse target) with
  | error e =>
    change (formatOf (Path.parse target)).toOption.isSome = true at hsome
    rw [hformat] at hsome
    cases hsome
  | ok format =>
    have hcontents := history_contents h hcoherent _ List.mem_cons_self hf format sampleItems
      hformat hitems hdistinct
    rcases hcontents with ⟨f, hr, -⟩ | hleaves
    · cases (eq_ok_of_toOption hok).symm.trans hr
    · exact ⟨format, hleaves⟩

end TabPackager.Bundle
