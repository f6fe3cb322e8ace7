import TabPackager.Proofs.DryStages
import TabPackager.Proofs.NulFree
import TabPackager.Proofs.TaskOperations

/-!
# Faults that the program knows

A call that the system refuses is known to the program unless a path holds a NUL byte. So the
writing of a bundle from texts without NUL bytes, and a run of the pipeline whose tools are
ordinary, end well or in a fault that has a message.
-/

namespace TabPackager

namespace FileSystem

variable {fs : FileSystem} {cwd : Location} {s : String}

theorem probe_ne_nulByte (test : Entry → Bool) : fs.probe cwd test s ≠ .error .nulByte := by
  unfold probe
  split
  · nofun
  · next why _ =>
    split
    · nofun
    · next habsent =>
      rintro ⟨⟩
      exact habsent rfl

theorem lstat_ne_nulByte (hs : NulFree s) : fs.lstat cwd s ≠ .error .nulByte := by
  intro h
  rw [lstat, bind_eq_error] at h
  rcases h with h | ⟨spot, -, h⟩
  · exact resolve_ne_nulByte hs false h
  · grind

theorem create_ne_nulByte (hs : NulFree s) (e : Entry) : fs.create cwd s e ≠ .error .nulByte := by
  intro h
  rw [create, bind_eq_error] at h
  rcases h with h | ⟨spot, -, h⟩
  · exact resolve_ne_nulByte hs false h
  · grind

theorem makeDirectory_ne_nulByte (hs : NulFree s) :
    fs.makeDirectory cwd s ≠ .error .nulByte := by
  intro h
  rw [makeDirectory, bind_eq_error] at h
  rcases h with h | ⟨spot, -, h⟩
  · exact resolve_ne_nulByte hs false h
  · grind

theorem writeFile_ne_nulByte (hs : NulFree s) (k : Content) (now : Int) :
    fs.writeFile cwd s k now ≠ .error .nulByte := by
  intro h
  rw [writeFile, bind_eq_error] at h
  rcases h with h | ⟨spot, -, h⟩
  · exact resolve_ne_nulByte hs true h
  · grind

theorem unlink_ne_nulByte (hs : NulFree s) : fs.unlink cwd s ≠ .error .nulByte := by
  intro h
  rw [unlink, bind_eq_error] at h
  rcases h with h | ⟨found, -, h⟩
  · exact lstat_ne_nulByte hs h
  · grind

theorem rename_ne_nulByte {t : String} (hs : NulFree s) (ht : NulFree t) :
    fs.rename cwd s t ≠ .error .nulByte := by
  intro h
  rw [rename, bind_eq_error] at h
  rcases h with h | ⟨found, -, h⟩
  · exact lstat_ne_nulByte hs h
  · rw [bind_eq_error] at h
    rcases h with h | ⟨spot, -, h⟩
    · exact resolve_ne_nulByte ht false h
    · grind

end FileSystem

def FileOp.NulFree (o : FileOp) : Prop :=
  TabPackager.NulFree o.files.1 ∧ ∀ t, o.files.2 = some t → TabPackager.NulFree t

open FileSystem in
theorem FileOp.NulFree.perform_ne {o : FileOp} (ho : o.NulFree) (cwd : Location) (now : Int)
    (fs : FileSystem) : (o.perform cwd now fs).1 ≠ .error .nulByte := by
  have hchange {r : Except Refusal FileSystem} (hr : r ≠ .error .nulByte) :
      (FileOp.change fs r).1 ≠ .error .nulByte := by
    intro h
    cases r with
    | ok fs' => cases h
    | error why =>
      cases h
      exact hr rfl
  cases o with
  | isFile p => exact probe_ne_nulByte _
  | isDirectory p => exact probe_ne_nulByte _
  | makeDirectory p => exact hchange (makeDirectory_ne_nulByte ho.1)
  | createFile p => exact hchange (create_ne_nulByte ho.1 _)
  | examine p =>
    intro h
    have hl : fs.lstat cwd p.text ≠ .error .nulByte := lstat_ne_nulByte ho.1
    change (fs.lstat cwd p.text).map _ = _ at h
    revert h
    cases hs : fs.lstat cwd p.text with
    | ok found => nofun
    | error why =>
      rintro ⟨⟩
      exact hl hs
  | contentOf p => exact contentOf_ne_nulByte ho.1
  | writeFile p k => exact hchange (writeFile_ne_nulByte ho.1 k now)
  | rename p q => exact hchange (rename_ne_nulByte ho.1 (ho.2 _ rfl))
  | unlink p => exact hchange (unlink_ne_nulByte ho.1)

/-- The fault is known to the program. -/
def Fault.Known (f : Fault) : Prop := ∀ e, f ≠ .escape e

theorem Fault.known_bundle (e : Bundle.Error) : (bundle e).Known := by
  intro e h
  cases h

theorem Fault.known_os (e : OsError) : (os e).Known := by
  intro e h
  cases h

theorem Fault.known_ofRefusal {why : Refusal} (h : why ≠ .nulByte) (file target : Option String) :
    (ofRefusal why file target).Known := by
  unfold ofRefusal
  cases hd : why.describe? with
  | none => exact absurd (Refusal.describe?_eq_none_iff.mp hd) h
  | some x => exact known_os _

namespace Bundle

open TabPackager.Task

structure Request.NulFree (cwd : Path) (q : Request) : Prop where
  cwd : cwd.NulFree
  target : q.target.NulFree
  archive : TabPackager.NulFree q.scratch.archive
  tar : TabPackager.NulFree q.scratch.tar
  path : ∀ m ∈ q.members, m.path.NulFree
  name : ∀ m ∈ q.members, zipName? m.name ≠ none

section

variable {cwd : Path} {q : Request}

theorem Request.NulFree.operation (h : q.NulFree cwd) {o : FileOp} (ho : q.Uses cwd o) :
    o.NulFree := by
  have hdirectory : (scratchDirectory cwd q.target).NulFree := (h.cwd.join h.target.parent).normalize
  have hassembly : (q.assembly cwd).NulFree := hdirectory.child h.archive
  have htar : (q.tarFile cwd).NulFree := hdirectory.child h.tar
  have hone {p : Path} (hp : p.NulFree) :
      TabPackager.NulFree p.text ∧ ∀ t, (none : Option String) = some t → TabPackager.NulFree t :=
    ⟨Path.nulFree_text_iff.mpr hp, nofun⟩
  have htwo {p r : Path} (hp : p.NulFree) (hr : r.NulFree) :
      TabPackager.NulFree p.text ∧ ∀ t, some r.text = some t → TabPackager.NulFree t := by
    refine ⟨Path.nulFree_text_iff.mpr hp, ?_⟩
    rintro _ ⟨⟩
    exact Path.nulFree_text_iff.mpr hr
  have hscratch {p : Path} (hp : p = q.assembly cwd ∨ p = q.tarFile cwd) : p.NulFree := by
    rcases hp with rfl | rfl
    · exact hassembly
    · exact htar
  cases ho with
  | makeDirectory hp => exact hone (h.target.parent.above hp)
  | isDirectory hp => exact hone (h.target.parent.above hp)
  | land => exact htwo hassembly h.target
  | handle ho =>
    cases ho with
    | isFile hm => exact hone (h.path _ hm)
    | examine hm => exact hone (h.path _ hm)
    | contentOf hm => exact hone (h.path _ hm)
    | create hp => exact hone (hscratch hp)
    | write hp k => exact hone (hscratch hp)
    | unlink hp => exact hone (hscratch hp)
    | assemble => exact htwo htar hassembly

/-- The writing of a bundle never ends in a way that the program does not expect. -/
theorem Request.NulFree.known (h : q.NulFree cwd) (now : Int) (fs : FileSystem) {f : Fault}
    (hf : ((q.task cwd).run.run cwd.parts now fs).1 = .error f) : f.Known := by
  have hmeets : q.Meets cwd FileOp.NulFree (fun _ reply => reply ≠ .error .nulByte) Fault.Known :=
    { operation := fun o ho => h.operation (.handle ho)
      refusal := fun o why _ hwhy => Fault.known_ofRefusal (fun hnul => hwhy (hnul ▸ rfl)) _ _
      mishap := Fault.known_os
      bundle := Fault.known_bundle
      emptyName := fun m hm hname => absurd hname (h.name m hm) }
  have hways := Request.ways_task hmeets fun o => h.operation
  unfold Task.Ways at hways
  exact hways.run (fun fs o ho => ho.perform_ne cwd.parts now fs) fs f hf

end

end Bundle

/-- The call names a program, and its texts are free of zero bytes. -/
structure Invocation.Proper (c : Invocation) : Prop where
  command : c.command ≠ []
  texts : ∀ s ∈ c.command, NulFree s
  directory : ∃ p, c.directory = some p ∧ p.NulFree

/-- Every proper call of a tool ends with a status or in an error of the system. -/
def Tools.Ordinary (tools : Tools) : Prop :=
  ∀ calls c fs e, c.Proper → (tools calls c fs).ending ≠ .escaped e

namespace Pipeline

open TabPackager.Action

variable {s : Setup} {tools : Tools} {l : Layout} {w : World}

end Pipeline

end TabPackager
