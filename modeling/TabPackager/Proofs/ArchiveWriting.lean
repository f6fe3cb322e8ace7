import TabPackager.Proofs.MemberStoring

/-!
# Writing an archive to a file of one's own

The archive of a format is written to one own file, by way of a second own file for a tar archive.
However the writing goes, the second file is gone afterwards and nothing but the first has
changed; when it succeeds, the first holds an archive of the format with the members as they stood,
and nothing was due to go wrong.
-/

namespace TabPackager

def Archive.format {α : Type} : Archive α → Bundle.Format
  | .zip _ => .zip
  | .tar _ => .tar
  | .gzip .. => .gzip
  | .zstd .. => .zstd

namespace Bundle

open FileSystem TabPackager.Task

variable {cwd : Location} {now : Int} {base fs fs' : FileSystem} {own : Location → Option Nat}
  {events : List Event} {output : Path} {loc : Location} {i : Nat} {known : Fault → Prop}
  {mishaps : Mishaps}

/-- Writes an archive, made out of a tar file, unless its compression is due to go wrong. -/
def pack (mishaps : Mishaps) (format : Format) (target output : Path)
    (a empty : Archive Content) : Task Unit := do
  Task.call (.writeFile output (.draft empty))
  match if format = .zstd then mishaps.compressing else none with
  | some reason => throw (.bundle (.compression target reason))
  | none => Task.call (.writeFile output (.archive a))

def finish (mishaps : Mishaps) (format : Format) (target output tarPath : Path)
    (entries : List (TarEntry Content)) : Task Unit :=
  match format with
  | .zstd =>
    let c := compressionFor (tarSize entries) none
    pack mishaps format target output (.zstd c.checksum c.windowLog entries)
      (.zstd c.checksum c.windowLog [])
  | .gzip =>
    pack mishaps format target output (.gzip output.name 0 entries) (.gzip output.name 0 [])
  | _ => Task.call (.rename tarPath output)

def fillZip (mishaps : Mishaps) (output : Path) (members : List Member) : Task Unit := do
  Task.call (.writeFile output (.draft (.zip [])))
  let entries ← storeZip mishaps output 0 [] members
  Task.call (.writeFile output (.archive (.zip entries)))

variable {format : Format} {members : List Member} {target tarPath : Path}

theorem writeArchive_zip (mishaps : Mishaps) (members : List Member)
    (target output tarPath : Path) :
    writeArchive mishaps .zip members target output tarPath = fillZip mishaps output members :=
  rfl

theorem writeArchive_tar (hf : format ≠ .zip) (mishaps : Mishaps) (members : List Member)
    (target output tarPath : Path) :
    writeArchive mishaps format members target output tarPath =
      writeTar mishaps tarPath members >>= fun entries =>
        (finish mishaps format target output tarPath entries).thenAlways (discard tarPath) := by
  cases format with
  | zip => exact absurd rfl hf
  | zstd => rfl
  | gzip => rfl
  | tar => rfl

theorem keeps_pack (hl : base.Leads cwd output loc) (hi : own loc = some i)
    (a empty : Archive Content) :
    Keeps cwd now (Overlaid base own) (pack mishaps format target output a empty) := by
  refine Keeps.bind (keeps_writeFile hl hi _) fun _ => ?_
  split
  · exact Keeps.throw _
  · exact keeps_writeFile hl hi _

theorem execution_pack (ho : Overlaid base own fs) (hl : base.Leads cwd output loc)
    (hi : own loc = some i) {a empty : Archive Content}
    (h : Task.Execution cwd now (pack mishaps format target output a empty) fs events (.ok ())
      fs') :
    fs'.lookup loc = some (.file i (.archive a) now) ∧
      (format = .zstd → mishaps.compressing = none) := by
  obtain ⟨_, fs₁, _, _, h₁, hthen, -⟩ := (execution_bind h).resolve_right (by simp)
  split at hthen
  · obtain ⟨-, hr, -⟩ := execution_throw hthen
    cases hr
  · next hn =>
    have ho₁ := keeps_writeFile hl hi _ _ _ _ _ ho h₁
    exact ⟨execution_writeFile ho₁ hl hi hthen, fun hz => by rwa [if_pos hz] at hn⟩

theorem explains_pack
    (hk : ∀ reason, format = .zstd → mishaps.compressing = some reason →
      known (.bundle (.compression target reason))) (a empty : Archive Content) :
    Explains cwd now known (pack mishaps format target output a empty) := by
  refine Explains.bind (Explains.call rfl) fun _ => ?_
  split
  · next reason hr =>
    by_cases hz : format = .zstd
    · rw [if_pos hz] at hr
      exact Explains.throw (hk reason hz hr)
    · rw [if_neg hz] at hr
      cases hr
  · exact Explains.call rfl

theorem explains_writeArchive
    (hstore : ∀ k e, k < members.length → mishaps.storing k = some e → known (.os e))
    (hpack : ∀ reason, format = .zstd → mishaps.compressing = some reason →
      known (.bundle (.compression target reason)))
    (hname : ∀ m ∈ members, format = .zip → zipName? m.name = none →
      known (.escape .emptyName)) :
    Explains cwd now known (writeArchive mishaps format members target output tarPath) := by
  by_cases hf : format = .zip
  · subst hf
    rw [writeArchive_zip]
    refine Explains.bind (Explains.call rfl) fun _ => ?_
    refine Explains.bind (explains_storeZip (fun k e _ hlt => hstore k e (by omega))
      (fun m hm => hname m hm rfl) []) fun entries => ?_
    exact Explains.call rfl
  · rw [writeArchive_tar hf]
    refine Explains.bind (explains_writeTar hstore tarPath) fun entries => ?_
    refine explains_thenDiscard ?_ tarPath
    unfold finish
    split
    · exact explains_pack hpack _ _
    · exact explains_pack hpack _ _
    · exact Explains.call rfl

/-- An archive of the format is complete at the place, in a file of the identity. -/
def Holds (format : Format) (loc : Location) (i : Nat) (fs : FileSystem) : Prop :=
  ∃ a m, fs.lookup loc = some (.file i (.archive a) m) ∧ a.format = format

/-- The archive that is complete at the place holds the members as they are in the base. -/
def Filled (base : FileSystem) (cwd : Location) (members : List Member) (format : Format)
    (loc : Location) (i : Nat) (fs : FileSystem) : Prop :=
  ∃ a m, fs.lookup loc = some (.file i (.archive a) m) ∧ a.format = format ∧
    Packed base cwd members a

theorem Filled.holds (h : Filled base cwd members format loc i fs) : Holds format loc i fs := by
  obtain ⟨a, m, ha, hf, -⟩ := h
  exact ⟨a, m, ha, hf⟩

theorem Filled.congr (h : Filled base cwd members format loc i fs)
    (hl : fs'.lookup loc = fs.lookup loc) : Filled base cwd members format loc i fs' := by
  obtain ⟨a, m, ha, hf, hp⟩ := h
  exact ⟨a, m, hl.trans ha, hf, hp⟩

theorem Filled.of_kept {top : FileSystem} (hk : EntriesKept top base)
    (h : Filled base cwd members format loc i fs) :
    Filled top cwd members format loc i fs := by
  obtain ⟨a, m, ha, hf, hp⟩ := h
  exact ⟨a, m, ha, hf, hp.of_kept hk⟩

structure Faultless (mishaps : Mishaps) (format : Format) (members : List Member) : Prop where
  stored : ∀ k < members.length, mishaps.storing k = none
  compressed : format = .zstd → mishaps.compressing = none

theorem execution_fillZip (ho : Overlaid base (single loc i) fs)
    (hl : base.Leads cwd output loc) {result : Except Fault Unit}
    (h : Task.Execution cwd now (fillZip mishaps output members) fs events result fs') :
    Overlaid base (single loc i) fs' ∧
      (result = .ok () →
        Filled base cwd members .zip loc i fs' ∧ Faultless mishaps .zip members) := by
  have hi := single_self loc i
  have hkeeps : Keeps cwd now (Overlaid base (single loc i))
      (fillZip mishaps output members) := by
    refine Keeps.bind (keeps_writeFile hl hi _) fun _ => ?_
    refine Keeps.bind (keeps_storeZip hl hi 0 [] members) fun entries => ?_
    exact keeps_writeFile hl hi _
  refine ⟨hkeeps _ _ _ _ ho h, ?_⟩
  rintro rfl
  obtain ⟨_, fs₁, _, _, h₁, hthen, -⟩ := (execution_bind h).resolve_right (by simp)
  obtain ⟨entries, fs₂, _, _, h₂, hlast, -⟩ := (execution_bind hthen).resolve_right (by simp)
  have ho₁ := keeps_writeFile hl hi _ _ _ _ _ ho h₁
  have ho₂ := keeps_storeZip hl hi 0 [] members _ _ _ _ ho₁ h₂
  obtain ⟨⟨es, he, hp⟩, hstored⟩ := execution_storeZip ho₁ hl hi h₂
  obtain rfl : entries = es := he
  refine ⟨⟨_, now, execution_writeFile ho₂ hl hi hlast, rfl, hp⟩, ?_, fun hz => nomatch hz⟩
  exact fun k hk => hstored k (Nat.zero_le k) (by omega)

theorem execution_finish {out : Location} {n : Nat} (hne : loc ≠ out)
    (ho : Overlaid base (Function.update (single out n) loc (some i)) fs)
    (hl : base.Leads cwd tarPath loc) (hout : base.Leads cwd output out)
    {entries : List (TarEntry Content)} {m : Int}
    (hk : fs.lookup loc = some (.file i (.archive (.tar entries)) m))
    (hp : TarPacked base cwd [] members entries) (hf : format ≠ .zip)
    {result : Except Fault Unit}
    (h : Task.Execution cwd now (finish mishaps format target output tarPath entries) fs events
      result fs') :
    ∃ j, (∃ t, Overlaid base (Function.update (single out j) loc t) fs') ∧
      (result = .ok () → Filled base cwd members format out j fs' ∧
        (format = .zstd → mishaps.compressing = none)) := by
  have hn : Function.update (single out n) loc (some i) out = some n := by
    rw [Function.update_of_ne hne.symm, single_self]
  have hpack {a empty : Archive Content}
      (h : Task.Execution cwd now (pack mishaps format target output a empty) fs events
        result fs') (ha : a.format = format) (hp : Packed base cwd members a) :
      ∃ j, (∃ t, Overlaid base (Function.update (single out j) loc t) fs') ∧
        (result = .ok () → Filled base cwd members format out j fs' ∧
          (format = .zstd → mishaps.compressing = none)) := by
    refine ⟨n, ⟨some i, keeps_pack hout hn a empty _ _ _ _ ho h⟩, ?_⟩
    rintro rfl
    obtain ⟨hf', hz⟩ := execution_pack ho hout hn h
    exact ⟨⟨a, now, hf', ha, hp⟩, hz⟩
  cases format with
  | zip => exact absurd rfl hf
  | zstd => exact hpack h rfl hp
  | gzip => exact hpack h rfl hp
  | tar =>
    have hi : Function.update (single out n) loc (some i) loc = some i := Function.update_self ..
    rcases execution_moveOwn ho hl hout hi hn hne hk h with ⟨rfl, f, rfl⟩ | ⟨rfl, ho', hf'⟩
    · exact ⟨n, ⟨some i, ho⟩, fun hr => nomatch hr⟩
    · refine ⟨i, ⟨none, ?_⟩, fun _ => ⟨⟨_, m, hf', rfl, hp⟩, fun hz => nomatch hz⟩⟩
      rwa [Function.update_idem, Function.update_comm hne, single, Function.update_idem] at ho'

/-- Writing an archive touches only the output, which stays an own file, possibly under another
identity. -/
theorem execution_writeArchive {out : Location} (ho : Overlaid base (single out i) fs)
    (hout : base.Leads cwd output out) {result : Except Fault Unit}
    (h : Task.Execution cwd now (writeArchive mishaps format members target output tarPath) fs
      events result fs') (hc : Cleaned events) :
    ∃ j, Overlaid base (single out j) fs' ∧
      (result = .ok () →
        Filled base cwd members format out j fs' ∧ Faultless mishaps format members) := by
  by_cases hf : format = .zip
  · subst hf
    exact ⟨i, execution_fillZip ho hout h⟩
  · rw [writeArchive_tar hf] at h
    rcases execution_bind h with ⟨entries, fs₁, _, _, h₁, hthen, rfl⟩ | ⟨f, h₁, rfl⟩
    · obtain ⟨hc₁, hc₂⟩ := hc.of_append
      have hwritten := (execution_writeTar ho h₁ hc₁).resolve_left (by simp)
      obtain ⟨_, loc, n, hr, hl, hown, hn, ho₁, hk, hp, hstored⟩ := hwritten
      cases hr
      have hne : loc ≠ out := by
        rintro rfl
        rw [single_self] at hown
        cases hown
      obtain ⟨r, fs₂, _, r', _, h₂, h₃, rfl, rfl⟩ := execution_thenAlways hthen
      obtain ⟨j, ⟨t, ho₂⟩, hok⟩ := execution_finish hne ho₁ hl hout hk hp hf h₂
      obtain ⟨rfl, ho₃, hsame⟩ := execution_discardOwn ho₂ hl hn h₃ hc₂.of_append.2
      rw [Function.update_idem, ← single_of_ne hne j, Function.update_eq_self] at ho₃
      refine ⟨j, ho₃, fun hr => ?_⟩
      obtain ⟨⟨a, m, ha, hfmt, hpacked⟩, hz⟩ := hok hr
      exact ⟨⟨a, m, by rw [hsame out hne.symm, ha], hfmt, hpacked⟩, hstored, hz⟩
    · obtain ⟨g, hg, ho'⟩ := (execution_writeTar ho h₁ hc).resolve_right (by simp)
      exact ⟨i, ho', fun hr => nomatch hr⟩

end Bundle

end TabPackager
