import TabPackager.Proofs.ArchiveWriting
import TabPackager.Proofs.KeptFiles

/-!
# Archives that are settled beforehand

The archive that a write comes to is settled by the files that it starts from, by its members, by
its format and by the label. While it is written, the files of the start keep their contents and
the number of their names, so that each member is stored as it was; and a finished archive that
stands in any other file is the one that was settled.
-/

namespace TabPackager.Bundle

open FileSystem TabPackager.Task

def tarEntriesOf (fs : FileSystem) (cwd : Location) :
    List (Nat × String) → List Member → Option (List (TarEntry Content))
  | _, [] => some []
  | stored, m :: ms => do
    let (_, shown) ← (fs.lstat cwd m.path.text).toOption
    let seen := FileOp.examineEntry fs shown
    match tarEntry? stored m.name seen with
    | none => tarEntriesOf fs cwd stored ms
    | some e => (tarEntriesOf fs cwd (noteStored stored m.name e seen) ms).map (e :: ·)

def zipEntriesOf (fs : FileSystem) (cwd : Location) :
    List Member → Option (List (ZipEntry Content))
  | [] => some []
  | m :: ms => do
    let (content, modified) ← (fs.contentOf cwd m.path.text).toOption
    let name ← zipName? m.name
    (zipEntriesOf fs cwd ms).map (zipEntry name content modified :: ·)

/-- What an archive is made of: the files that stand, the directory from which paths go, the
members, and the label of a stream. -/
structure Packing where
  files : FileSystem
  cwd : Location
  members : List Member
  label : String

namespace Packing

def archive? (P : Packing) : Format → Option (Archive Content)
  | .zip => (zipEntriesOf P.files P.cwd P.members).map .zip
  | .tar => (tarEntriesOf P.files P.cwd [] P.members).map .tar
  | .gzip => (tarEntriesOf P.files P.cwd [] P.members).map (.gzip P.label 0)
  | .zstd => (tarEntriesOf P.files P.cwd [] P.members).map fun entries =>
    let c := compressionFor (tarSize entries) none
    .zstd c.checksum c.windowLog entries

/-- Each finished archive in a file that is none of the packing's is the packing's archive. -/
def Faithful (P : Packing) (fs : FileSystem) : Prop :=
  ∀ loc i a m, fs.lookup loc = some (.file i (.archive a) m) →
    (∃ l, P.files.Names l i) ∨ P.archive? a.format = some a

variable {P : Packing} {base fs fs' : FileSystem} {own : Location → Option Nat} {o : FileOp}
  {cwd loc : Location} {now : Int} {p file : Path} {i : Nat} {mishaps : Mishaps}

theorem faithful_files (P : Packing) : P.Faithful P.files :=
  fun loc _ a m hl => .inl ⟨loc, .archive a, m, hl⟩

/-- The operation finishes no archive but the packing's. -/
def Allows (P : Packing) : FileOp → Prop
  | .writeFile _ (.archive a) => P.archive? a.format = some a
  | _ => True

theorem Faithful.effect (h : P.Faithful fs) (he : o.effect cwd now fs = .ok fs')
    (ho : P.Allows o) : P.Faithful fs' := by
  intro loc i a m hl
  rcases shown_of_effect he hl with ⟨l, hl⟩ | hempty | ⟨p, rfl⟩
  · exact h l i a m hl
  · cases hempty
  · exact .inr ho

theorem Faithful.happens (h : P.Faithful fs) {reply : Except Refusal o.Reply}
    (hh : o.Happens cwd now fs reply fs') (ho : P.Allows o) : P.Faithful fs' := by
  rcases hh.cases with ⟨rfl, -⟩ | ⟨he, -⟩
  · exact h
  · exact h.effect he ho

theorem keeps_faithful (ho : P.Allows o) : Keeps cwd now P.Faithful (call o) :=
  Keeps.call fun _ _ _ h hh => h.happens hh ho

theorem keeps_faithful_discard (p : Path) : Keeps cwd now P.Faithful (discard p) := by
  refine Keeps.bind (Keeps.attempt fun _ _ _ h hh => h.happens hh trivial) fun reply => ?_
  split
  · exact Keeps.pure ()
  · exact Keeps.pure ()
  · exact Keeps.throw _

/-- The files of the packing stand as they did, below files of one's own. -/
structure Laid (P : Packing) (base : FileSystem) (own : Location → Option Nat)
    (fs : FileSystem) : Prop where
  overlaid : Overlaid base own fs
  below : EntriesKept P.files base
  kept : FilesKept P.files fs
  faithful : P.Faithful fs

def Ready (P : Packing) (ms : List Member) : Prop :=
  ∀ m ∈ ms, P.files.isFile P.cwd m.path.text = .ok true

theorem achieves_createFile (P : Packing) (base : FileSystem) (own : Location → Option Nat)
    (p : Path) :
    Achieves P.cwd now (P.Laid base own) (call (.createFile p)) fun _ fs =>
      ∃ loc i, base.Leads P.cwd p loc ∧ P.Laid base (Function.update own loc (some i)) fs := by
  intro fs events _ fs' h hx
  have hcreated := (execution_createFile h.overlaid hx).resolve_left (by simp)
  obtain ⟨-, loc, i, hl, -, -, ho⟩ := hcreated
  obtain ⟨reply, hh, -, hr⟩ := execution_call hx
  rcases hh.cases with ⟨-, why, rfl⟩ | ⟨he, -⟩
  · cases hr
  · exact ⟨loc, i, hl, ho, h.below, h.kept.createFile he, h.faithful.effect he trivial⟩

theorem keeps_laid_draft (hl : base.Leads P.cwd p loc) (hi : own loc = some i)
    (a : Archive Content) : Keeps P.cwd now (P.Laid base own) (call (.writeFile p (.draft a))) := by
  refine Keeps.call fun fs reply fs' h hh => ?_
  rcases hh.cases with ⟨rfl, -⟩ | ⟨he, -⟩
  · exact h
  · have hf := h.faithful.effect he trivial
    rw [effect_writeFile h.overlaid hl hi, Except.ok.injEq] at he
    subst he
    exact ⟨h.overlaid.replaceContent hi _ now, h.below,
      h.kept.replaceContent h.below h.overlaid hi _ now, hf⟩

theorem Ready.exists_lstat {ms : List Member} (h : P.Ready ms) {m : Member} (hm : m ∈ ms) :
    ∃ loc e, P.files.lstat P.cwd m.path.text = .ok (loc, e) := by
  obtain ⟨loc, i, k, t, hs⟩ := isFile_eq_true.mp (h m hm)
  rcases lstat_of_stat hs with hl | ⟨loc', t', m', hl⟩
  · exact ⟨_, _, hl⟩
  · exact ⟨_, _, hl⟩

/-- A member is shown as it stands in the packing's files. -/
theorem achieves_examine {ms : List Member} (hr : P.Ready ms) {m : Member} (hm : m ∈ ms) :
    Achieves P.cwd now (P.Laid base own) (call (.examine m.path)) fun seen fs =>
      P.Laid base own fs ∧ ∃ loc e, P.files.lstat P.cwd m.path.text = .ok (loc, e) ∧
        seen = FileOp.examineEntry P.files e := by
  refine Achieves.call fun fs seen fs' h hp => ?_
  obtain ⟨loc, e, hl⟩ := hr.exists_lstat hm
  have hreply : (fs.lstat P.cwd m.path.text).map
      (fun found => FileOp.examineEntry fs found.2) = .ok seen := congrArg Prod.fst hp
  obtain rfl : fs = fs' := congrArg Prod.snd hp
  rw [h.kept.entries.lstat hl] at hreply
  have hseen : FileOp.examineEntry fs e = seen := Except.ok.inj hreply
  rw [h.kept.examineEntry (lstat_eq_ok.mp hl).2] at hseen
  exact ⟨h, loc, e, hl, hseen.symm⟩

theorem achieves_contentOf {ms : List Member} (hr : P.Ready ms) {m : Member} (hm : m ∈ ms) :
    Achieves P.cwd now (P.Laid base own) (call (.contentOf m.path)) fun got fs =>
      P.Laid base own fs ∧ P.files.contentOf P.cwd m.path.text = .ok got := by
  refine Achieves.call fun fs got fs' h hp => ?_
  obtain ⟨loc, i, k, t, hs⟩ := isFile_eq_true.mp (hr m hm)
  have hreply : fs.contentOf P.cwd m.path.text = .ok got := congrArg Prod.fst hp
  obtain rfl : fs = fs' := congrArg Prod.snd hp
  rw [contentOf_eq_ok.mpr ⟨loc, i, h.kept.entries.stat hs⟩] at hreply
  rw [contentOf_eq_ok.mpr ⟨loc, i, hs⟩]
  exact ⟨h, hreply⟩

theorem tarEntriesOf_cons {fs : FileSystem} {stored : List (Nat × String)} {m : Member}
    {ms : List Member} {e : Entry} (hl : fs.lstat cwd m.path.text = .ok (loc, e)) :
    tarEntriesOf fs cwd stored (m :: ms) =
      match tarEntry? stored m.name (FileOp.examineEntry fs e) with
      | none => tarEntriesOf fs cwd stored ms
      | some t => (tarEntriesOf fs cwd
          (noteStored stored m.name t (FileOp.examineEntry fs e)) ms).map (t :: ·) := by
  rw [tarEntriesOf, hl]
  rfl

theorem zipEntriesOf_cons {fs : FileSystem} {m : Member} {ms : List Member} {k : Content}
    {t : Int} {name : String} (hc : fs.contentOf cwd m.path.text = .ok (k, t))
    (hn : zipName? m.name = some name) :
    zipEntriesOf fs cwd (m :: ms) = (zipEntriesOf fs cwd ms).map (zipEntry name k t :: ·) := by
  rw [zipEntriesOf, hc, hn]
  rfl

theorem Ready.of_cons {m : Member} {ms : List Member} (h : P.Ready (m :: ms)) : P.Ready ms :=
  fun m' hm => h m' (List.mem_cons_of_mem m hm)

section

variable (hl : base.Leads P.cwd file loc) (hi : own loc = some i)

include hl hi

theorem achieves_storeTar {ms : List Member} (hr : P.Ready ms) (number : Nat)
    (stored : List (Nat × String)) (entries : List (TarEntry Content)) :
    Achieves P.cwd now (P.Laid base own) (storeTar mishaps file number stored entries ms)
      fun all fs => P.Laid base own fs ∧
        ∃ es, tarEntriesOf P.files P.cwd stored ms = some es ∧ all = entries ++ es := by
  induction ms generalizing number stored entries with
  | nil => exact Achieves.pure fun fs h => ⟨h, [], rfl, (List.append_nil entries).symm⟩
  | cons m ms ih =>
    refine Achieves.bind (keeps_mayStore _ number).achieves fun _ => ?_
    refine Achieves.bind (achieves_examine hr List.mem_cons_self) fun seen => ?_
    refine Achieves.given ?_
    rintro ⟨l, shown, hshown, rfl⟩
    split
    · next hnone =>
      refine (ih hr.of_cons (number + 1) stored entries).imp fun all fs h => ?_
      rwa [tarEntriesOf_cons hshown, hnone]
    · next e hsome =>
      refine Achieves.bind (keeps_laid_draft hl hi _).achieves fun _ => ?_
      refine (ih hr.of_cons (number + 1) _ _).imp ?_
      rintro all fs ⟨h, es, hes, rfl⟩
      refine ⟨h, e :: es, ?_, by rw [List.append_assoc, List.singleton_append]⟩
      rw [tarEntriesOf_cons hshown, hsome]
      dsimp only
      rw [hes, Option.map_some]

theorem achieves_storeZip {ms : List Member} (hr : P.Ready ms) (number : Nat)
    (entries : List (ZipEntry Content)) :
    Achieves P.cwd now (P.Laid base own) (storeZip mishaps file number entries ms)
      fun all fs => P.Laid base own fs ∧
        ∃ es, zipEntriesOf P.files P.cwd ms = some es ∧ all = entries ++ es := by
  induction ms generalizing number entries with
  | nil => exact Achieves.pure fun fs h => ⟨h, [], rfl, (List.append_nil entries).symm⟩
  | cons m ms ih =>
    refine Achieves.bind (keeps_mayStore _ number).achieves fun _ => ?_
    refine Achieves.bind (achieves_contentOf hr List.mem_cons_self) fun (content, modified) => ?_
    refine Achieves.given fun hgot => ?_
    dsimp only
    split
    · exact Achieves.throw _
    · next name hname =>
      refine Achieves.bind (keeps_laid_draft hl hi _).achieves fun _ => ?_
      refine (ih hr.of_cons (number + 1) _).imp ?_
      rintro all fs ⟨h, es, hes, rfl⟩
      refine ⟨h, zipEntry name content modified :: es, ?_, ?_⟩
      · rw [zipEntriesOf_cons hgot hname, hes, Option.map_some]
      · rw [List.append_assoc, List.singleton_append]

theorem achieves_fillTar (hr : P.Ready P.members) :
    Achieves P.cwd now (P.Laid base own) (fillTar mishaps file P.members) fun entries fs =>
      P.Faithful fs ∧ tarEntriesOf P.files P.cwd [] P.members = some entries := by
  refine Achieves.bind (keeps_laid_draft hl hi _).achieves fun _ => ?_
  refine Achieves.bind (achieves_storeTar hl hi hr 0 [] []) fun entries => Achieves.given ?_
  rintro ⟨_, hes, rfl⟩
  have htar : P.archive? .tar = some (.tar entries) := by
    rw [archive?, hes, Option.map_some]
  have hwrite : Keeps P.cwd now P.Faithful (call (.writeFile file (.archive (.tar entries)))) :=
    keeps_faithful htar
  refine Achieves.bind (hwrite.achieves.of_imp fun _ => Laid.faithful) fun _ => ?_
  exact Achieves.pure fun fs h => ⟨h, hes⟩

theorem achieves_fillZip (hr : P.Ready P.members) :
    Achieves P.cwd now (P.Laid base own) (fillZip mishaps file P.members) fun _ =>
      P.Faithful := by
  refine Achieves.bind (keeps_laid_draft hl hi _).achieves fun _ => ?_
  refine Achieves.bind (achieves_storeZip hl hi hr 0 []) fun entries => Achieves.given ?_
  rintro ⟨_, hes, rfl⟩
  have hzip : P.archive? .zip = some (.zip entries) := by
    rw [archive?, hes, Option.map_some]
  have hwrite : Keeps P.cwd now P.Faithful (call (.writeFile file (.archive (.zip entries)))) :=
    keeps_faithful hzip
  exact hwrite.achieves.of_imp fun _ => Laid.faithful

end

theorem achieves_writeTar (hr : P.Ready P.members) :
    Achieves P.cwd now (P.Laid base own) (writeTar mishaps file P.members) fun entries fs =>
      P.Faithful fs ∧ tarEntriesOf P.files P.cwd [] P.members = some entries := by
  rw [writeTar_eq]
  refine Achieves.bind (P.achieves_createFile base own file) fun _ => ?_
  refine Achieves.tryCatch ?_ fun f => ?_
  · rintro fs events entries fs' ⟨loc, i, hl, h⟩ hx
    exact achieves_fillTar hl (Function.update_self ..) hr fs events entries fs' h hx
  · exact Achieves.bind (Q := fun _ _ => True) (fun _ _ _ _ _ _ => trivial)
      fun _ => Achieves.throw f

variable {format : Format} {target output tarPath : Path}

theorem keeps_faithful_pack {a : Archive Content} (ha : P.archive? a.format = some a)
    (empty : Archive Content) :
    Keeps cwd now P.Faithful (pack mishaps format target output a empty) := by
  refine Keeps.bind (keeps_faithful trivial) fun _ => ?_
  split
  · exact Keeps.throw _
  · exact keeps_faithful ha

theorem keeps_faithful_finish (hlabel : P.label = output.name) {entries : List (TarEntry Content)}
    (hes : tarEntriesOf P.files P.cwd [] P.members = some entries) :
    Keeps cwd now P.Faithful (finish mishaps format target output tarPath entries) := by
  unfold finish
  split
  · refine keeps_faithful_pack ?_ _
    rw [Archive.format, archive?, hes, Option.map_some]
  · refine keeps_faithful_pack ?_ _
    rw [Archive.format, archive?, hes, Option.map_some, hlabel]
  · exact keeps_faithful trivial

/-- Writing an archive to an own file leaves faithful archives. -/
theorem achieves_writeArchive (hr : P.Ready P.members) (hlabel : P.label = output.name)
    (hl : base.Leads P.cwd output loc) (hi : own loc = some i) :
    Achieves P.cwd now (P.Laid base own)
      (writeArchive mishaps format P.members target output tarPath) fun _ => P.Faithful := by
  by_cases hf : format = .zip
  · subst hf
    exact achieves_fillZip hl hi hr
  · rw [writeArchive_tar hf]
    refine Achieves.bind (achieves_writeTar hr) fun entries => Achieves.given fun hes => ?_
    refine Achieves.thenAlways (keeps_faithful_finish hlabel hes).achieves fun _ => ?_
    exact keeps_faithful_discard tarPath

end Packing

end TabPackager.Bundle
