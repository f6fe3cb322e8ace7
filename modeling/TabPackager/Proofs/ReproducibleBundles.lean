import TabPackager.Proofs.BundleContents
import TabPackager.Proofs.OwnRemovals
import TabPackager.Proofs.SettledArchives

/-!
# Reproducible bundles

A call that returns leaves the archive that its files, its members and its format settle: neither
the time of the call nor the names drawn for the files beside its target make a difference. The
one exception is the stream of a gzip archive, which is labelled with the name that was drawn for
the file in which it was assembled.
-/

namespace TabPackager

def Archive.relabel {α : Type} (label : String) : Archive α → Archive α
  | .gzip _ stamp entries => .gzip label stamp entries
  | a => a

namespace Bundle

open FileSystem TabPackager.Task

section

variable {P : Packing} {format : Format} {archive : Archive Content}

theorem Packing.archive?_label (P : Packing) (label : String) (format : Format) :
    ({ P with label := label } : Packing).archive? format =
      (P.archive? format).map (Archive.relabel label) := by
  cases format <;> simp only [archive?, Option.map_map] <;> rfl

theorem Packing.gzip_of_archive? (h : P.archive? .gzip = some archive) :
    ∃ entries, archive = .gzip P.label 0 entries := by
  obtain ⟨entries, -, rfl⟩ := Option.map_eq_some_iff.mp h
  exact ⟨entries, rfl⟩

theorem Packing.relabel_eq_self_iff (h : P.archive? format = some archive) (label : String) :
    archive.relabel label = archive ↔ (format = .gzip → label = P.label) := by
  have hplain (hf : format ≠ .gzip) (hr : archive.relabel label = archive) :
      archive.relabel label = archive ↔ (format = .gzip → label = P.label) :=
    iff_of_true hr fun he => absurd he hf
  cases format with
  | zip =>
    obtain ⟨entries, -, rfl⟩ := Option.map_eq_some_iff.mp h
    exact hplain nofun rfl
  | tar =>
    obtain ⟨entries, -, rfl⟩ := Option.map_eq_some_iff.mp h
    exact hplain nofun rfl
  | zstd =>
    obtain ⟨entries, -, rfl⟩ := Option.map_eq_some_iff.mp h
    exact hplain nofun rfl
  | gzip =>
    obtain ⟨entries, rfl⟩ := gzip_of_archive? h
    simp [Archive.relabel]

end

section

variable {cwd : Path} {q : Request} {before fs fs' : FileSystem} {now : Int} {format : Format}
  {events : List Event}

def Request.packing (cwd : Path) (q : Request) (before : FileSystem) : Packing where
  files := before
  cwd := cwd.parts
  members := q.members
  label := q.scratch.archive

theorem Request.label_packing (hd : q.scratch.Drawn) (before : FileSystem) :
    (q.packing cwd before).label = (q.assembly cwd).name := by
  rw [Path.name, getLast?_assembly hd]
  rfl

theorem Request.achieves_fill (hd : q.scratch.Drawn)
    (hr : (q.packing cwd before).Ready q.members) {base : FileSystem}
    {own : Location → Option Nat} {out : Location} {i : Nat}
    (hl : base.Leads cwd.parts (q.assembly cwd) out) (hi : own out = some i) :
    Achieves cwd.parts now ((q.packing cwd before).Laid base own) (q.fill cwd format)
      fun _ => (q.packing cwd before).Faithful := by
  have hwrite : Achieves cwd.parts now ((q.packing cwd before).Laid base own)
      (writeArchive q.mishaps format q.members q.target (q.assembly cwd)
        ((scratchDirectory cwd q.target).child q.scratch.tar))
      fun _ => (q.packing cwd before).Faithful :=
    Packing.achieves_writeArchive hr (label_packing hd before) hl hi
  have hmove : Keeps cwd.parts now (q.packing cwd before).Faithful
      (call (.rename (q.assembly cwd) q.target)) := Packing.keeps_faithful trivial
  exact hwrite.bind fun _ => hmove.achieves

theorem Request.achieves_assemble (hd : q.scratch.Drawn)
    (hr : (q.packing cwd before).Ready q.members) :
    Achieves cwd.parts now (fun fs => FilesKept before fs ∧ (q.packing cwd before).Faithful fs)
      (q.assemble cwd format) fun _ => (q.packing cwd before).Faithful := by
  rintro base events u fs' ⟨hk, hf⟩ hx
  have hsteps : Achieves cwd.parts now ((q.packing cwd before).Laid base fun _ => none)
      (q.assemble cwd format) fun _ => (q.packing cwd before).Faithful := by
    refine Achieves.bind (Packing.achieves_createFile _ base _ _) fun _ => ?_
    refine Achieves.thenAlways ?_ fun _ => Packing.keeps_faithful_discard _
    rintro fs events u fs' ⟨out, i, hl, h⟩ hx
    exact achieves_fill hd hr hl (Function.update_self ..) fs events u fs' h hx
  exact hsteps base events u fs' ⟨.refl base, hk.entries, hk, hf⟩ hx

theorem keeps_refused (I : FileSystem → Prop) {α : Type} (r : Except Error α) {cwd : Location} :
    Keeps cwd now I (refused r) := by
  cases r with
  | ok a => exact Keeps.pure a
  | error e => exact Keeps.throw _

/-- Until the assembly the files stay as they are, but for new directories. -/
theorem Request.keeps_directories (q : Request) :
    Keeps cwd.parts now (fun fs => FilesKept before fs ∧ (q.packing cwd before).Faithful fs)
      (makeDirectories q.target.parent.parts.length q.target.parent) := by
  refine Bundle.keeps_directories (A := fun _ => True) ?_ (fun _ _ => trivial) _ trivial
  rintro fs p fs' - ⟨hk, hf⟩ he
  have heffect : (FileOp.makeDirectory p).effect cwd.parts now fs = .ok fs' := he
  exact ⟨hk.makeDirectory he, hf.effect heffect trivial⟩

/-- A call that returns has left no archive but the one that was settled. -/
theorem Request.returned_faithful (hd : q.scratch.Drawn)
    (h : Task.Execution cwd.parts q.now (q.task cwd) fs events (.ok ()) fs') :
    (q.packing cwd fs).Faithful fs' := by
  have hr : (q.packing cwd fs).Ready q.members := returned_files h
  have htask : Achieves cwd.parts q.now
      (fun fs₁ => FilesKept fs fs₁ ∧ (q.packing cwd fs).Faithful fs₁) (q.task cwd)
      fun _ => (q.packing cwd fs).Faithful := by
    rw [task_eq]
    refine Achieves.bind (keeps_refused _ _).achieves fun format => ?_
    refine Achieves.bind (keeps_checkMembers _ q.members).achieves fun _ => ?_
    refine Achieves.bind q.keeps_directories.achieves fun _ => ?_
    exact Achieves.bind (Keeps.say _).achieves fun _ => achieves_assemble hd hr
  exact htask fs events () fs' ⟨.refl fs, Packing.faithful_files _⟩ h

end

namespace Attempt

variable {cwd : Path} {a b : Attempt} {format : Format} {archive : Archive Content}

/-- The call has returned, with the names of its files drawn as the system does it. -/
structure Returned (cwd : Path) (a : Attempt) : Prop where
  drawn : a.request.scratch.Drawn
  execution : Task.Execution cwd.parts a.request.now (a.request.task cwd) a.before a.events
    a.result a.after
  result : a.result = .ok ()

/-- The second call is asked to bundle the same members of the same files into the same target. -/
structure Repeats (a b : Attempt) : Prop where
  before : b.before = a.before
  members : b.request.members = a.request.members
  target : b.request.target = a.request.target

theorem Repeats.packing (h : a.Repeats b) (cwd : Path) :
    b.request.packing cwd b.before =
      { a.request.packing cwd a.before with label := b.request.scratch.archive } := by
  rw [Request.packing, h.before, h.members]
  rfl

theorem Returned.archive?_eq (h : a.Returned cwd) (hl : a.Leaves cwd.parts format archive) :
    (a.request.packing cwd a.before).archive? format = some archive := by
  obtain ⟨-, mid, loc, i, t, hmade, hp, hloc, hformat⟩ := hl
  have hx := h.execution
  rw [h.result] at hx
  rcases Request.returned_faithful h.drawn hx loc i archive t hloc with ⟨l, k, m, hk⟩ | ha
  · exact absurd (hmade.entriesKept _ _ hk) (hp.unshared l k m)
  · rwa [hformat] at ha

theorem Returned.leaves (h : a.Returned cwd) :
    ∃ format archive, formatOf a.request.target = .ok format ∧
      (a.request.packing cwd a.before).archive? format = some archive ∧
      ∀ x, a.Leaves cwd.parts format x ↔ x = archive := by
  have hx := h.execution
  rw [h.result] at hx
  obtain ⟨format, mid, loc, i, hmade, hp, archive, t, hloc, hformat, -⟩ :=
    Request.returned_filled h.drawn hx
  have hl : a.Leaves cwd.parts format archive :=
    ⟨h.result, mid, loc, i, t, hmade, hp, hloc, hformat⟩
  have ha := h.archive?_eq hl
  refine ⟨format, archive, hp.supported, ha, fun x => ⟨fun hx => ?_, fun hx => hx ▸ hl⟩⟩
  exact Option.some.inj ((h.archive?_eq hx).symm.trans ha)

/-- Two calls that differ in when they go, in how they go, and in the names of the files beside
the target leave one archive each, the same but for the label of a gzip stream: that is the name
of the file in which the archive was assembled. -/
theorem returned_reproduced (ha : a.Returned cwd) (hb : b.Returned cwd) (h : a.Repeats b) :
    ∃ format archive again, formatOf a.request.target = .ok format ∧
      (∀ x, a.Leaves cwd.parts format x ↔ x = archive) ∧
      (∀ x, b.Leaves cwd.parts format x ↔ x = again) ∧
      again = archive.relabel b.request.scratch.archive ∧
      (again = archive ↔
        (format = .gzip → b.request.scratch.archive = a.request.scratch.archive)) := by
  obtain ⟨format, archive, hf, hsettled, hl⟩ := ha.leaves
  obtain ⟨format', again, hf', hsettled', hl'⟩ := hb.leaves
  obtain rfl : format' = format := by
    rw [h.target, hf] at hf'
    exact (Except.ok.inj hf').symm
  have hagain : again = archive.relabel b.request.scratch.archive := by
    rw [h.packing, Packing.archive?_label, hsettled, Option.map_some] at hsettled'
    exact (Option.some.inj hsettled').symm
  refine ⟨format', archive, again, hf, hl, hl', hagain, ?_⟩
  rw [hagain]
  exact Packing.relabel_eq_self_iff hsettled _

end Attempt

def scratchWrite (scratch : Scratch) (now : Int) (target : String) : Attempt :=
  Request.attempt (Path.parse "/") ⟨scratch, {}, sampleMembers, Path.parse target, now⟩
    twoNamedFiles

def otherScratch : Scratch := ⟨"tmp7h2_kq9v.partial", "tmpz0c4m6ry.tar"⟩

theorem otherScratch_drawn : otherScratch.Drawn := ⟨"tmp7h2_kq9v", by decide, by decide⟩

theorem scratchWrite_returned {scratch : Scratch} (hd : scratch.Drawn) {now : Int}
    {target : String} (hr : (scratchWrite scratch now target).result.toOption = some ()) :
    (scratchWrite scratch now target).Returned (Path.parse "/") where
  drawn := hd
  execution := Request.execution_attempt _ _ _
  result := eq_ok_of_toOption hr

theorem scratchWrite_repeats (scratch scratch' : Scratch) (now now' : Int) (target : String) :
    (scratchWrite scratch now target).Repeats (scratchWrite scratch' now' target) :=
  ⟨rfl, rfl, rfl⟩

def sampleTargets : List String := ["/out/x.zip", "/out/x.tar", "/out/x.tgz", "/out/x.tar.zst"]

theorem returned_reproduced_of_sample :
    sampleTargets.map (fun target => (formatOf (Path.parse target)).toOption) =
        [some .zip, some .tar, some .gzip, some .zstd] ∧
      ∀ target ∈ sampleTargets, ∃ format archive again,
        formatOf (Path.parse target) = .ok format ∧
        (scratchWrite sampleScratch 9 target).Leaves [] format archive ∧
        (scratchWrite otherScratch 12 target).Leaves [] format again ∧
        (again = archive ↔ format ≠ .gzip) := by
  refine ⟨by decide, fun target ht => ?_⟩
  have hresults : ∀ target ∈ sampleTargets,
      (scratchWrite sampleScratch 9 target).result.toOption = some () ∧
        (scratchWrite otherScratch 12 target).result.toOption = some () := by
    decide +kernel
  obtain ⟨hr, hr'⟩ := hresults target ht
  obtain ⟨format, archive, again, hf, hl, hl', -, hsame⟩ :=
    Attempt.returned_reproduced (scratchWrite_returned sampleScratch_drawn hr)
      (scratchWrite_returned otherScratch_drawn hr') (scratchWrite_repeats ..)
  refine ⟨format, archive, again, hf, (hl archive).mpr rfl, (hl' again).mpr rfl, ?_⟩
  have hnames : otherScratch.archive ≠ sampleScratch.archive := by decide
  rw [hsame]
  exact imp_congr_right fun _ => iff_false_intro hnames

/-- The name of a file that is gone stands in the archive. -/
theorem gzip_not_reproduced :
    (scratchWrite sampleScratch 9 "/out/x.tgz").Returned (Path.parse "/") ∧
      (scratchWrite otherScratch 9 "/out/x.tgz").Returned (Path.parse "/") ∧
      (scratchWrite sampleScratch 9 "/out/x.tgz").Repeats
        (scratchWrite otherScratch 9 "/out/x.tgz") ∧
      ∃ archive again, archive ≠ again ∧
        (scratchWrite sampleScratch 9 "/out/x.tgz").Leaves [] .gzip archive ∧
        (scratchWrite otherScratch 9 "/out/x.tgz").Leaves [] .gzip again := by
  have hgzip : formatOf (Path.parse "/out/x.tgz") = .ok .gzip :=
    eq_ok_of_toOption (by decide +kernel)
  have hwrite {scratch : Scratch} (hd : scratch.Drawn)
      (hr : (scratchWrite scratch 9 "/out/x.tgz").result.toOption = some ()) :
      ∃ entries, (scratchWrite scratch 9 "/out/x.tgz").Leaves [] .gzip
        (.gzip scratch.archive 0 entries) := by
    obtain ⟨format, archive, hf, hsettled, hl⟩ := (scratchWrite_returned hd hr).leaves
    obtain rfl : Format.gzip = format := Except.ok.inj (hgzip.symm.trans hf)
    obtain ⟨entries, rfl⟩ := Packing.gzip_of_archive? hsettled
    exact ⟨entries, (hl _).mpr rfl⟩
  have hr : (scratchWrite sampleScratch 9 "/out/x.tgz").result.toOption = some () := by
    decide +kernel
  have hr' : (scratchWrite otherScratch 9 "/out/x.tgz").result.toOption = some () := by
    decide +kernel
  obtain ⟨entries, hl⟩ := hwrite sampleScratch_drawn hr
  obtain ⟨entries', hl'⟩ := hwrite otherScratch_drawn hr'
  refine ⟨scratchWrite_returned sampleScratch_drawn hr,
    scratchWrite_returned otherScratch_drawn hr', scratchWrite_repeats .., _, _, ?_, hl, hl'⟩
  intro he
  exact absurd (Archive.gzip.inj he).1 (by decide)

end Bundle

end TabPackager
