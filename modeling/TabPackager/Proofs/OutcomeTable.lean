import TabPackager.Proofs.RunVerdicts

/-!
# Runs without an exit status

A run that is not dry and reports nothing has the outcome of the table of cases. With tools that end
in a code or an error of the system, it lacks an exit status only when it comes to a bundle that has
no name, or whose writing meets an end that the program does not expect.
-/

namespace TabPackager.CommandLine

open Pipeline

/-- The run builds and packages, and so comes to its bundle. -/
structure ReachesBundle (tools : Tools) (s : Setup) (l : Layout) (files : FileSystem) :
    Prop where
  workspace : files.isDirectory s.cwd.parts s.workspace.text = .ok true
  build : (tools [] (buildCall s l) files).ending = .exited 0
  elf : (tools [] (buildCall s l) files).files.isFile s.cwd.parts
    (s.workspace / l.elf).text = .ok true
  package : (tools [buildCall s l] (packageCall s l)
    (tools [] (buildCall s l) files).files).ending = .exited 0

def leftBy (tools : Tools) (s : Setup) (l : Layout) (files : FileSystem) : FileSystem :=
  (tools [buildCall s l] (packageCall s l) (tools [] (buildCall s l) files).files).files

theorem probe_refused {fs : FileSystem} {cwd : Location} {test : Entry → Bool} {p : String}
    {why : Refusal} (h : fs.probe cwd test p = .error why) (file target : Option String)
    (e : Escape) : Fault.ofRefusal why file target ≠ .escape e := by
  unfold FileSystem.probe at h
  split at h
  · cases h
  · next why' _ =>
    split at h
    · cases h
    · next hn =>
      cases h
      cases why <;> simp_all [FileSystem.Refusal.isAbsence, Fault.ofRefusal, Refusal.describe?]

section

variable {host : Host} {tools : Tools} {o : Options} {s : Setup} {workspace : Path} {l : Layout}
  {files : FileSystem}

def Settled (row : Option Verdict) : Prop := ∀ v, row = some v → ∀ e, v.ending ≠ .error e

end

def sampleHost : Host where
  cwd := Path.parse "/ws"
  homes := ⟨"/root", []⟩
  now := 0
  scratch := ⟨"tmpq3x8a_0z.partial", "tmpk1v7m2pd.tar"⟩

def sampleWorkspace : FileSystem := ⟨[(["ws"], .directory)]⟩

def killedBuild : Tools := fun _ _ files => { files, ending := .exited (-9) }

def sampleTools : Tools := fun _ _ files =>
  { files := ⟨files.entries ++ [(["ws", "target"], .directory),
    (["ws", "target", "thumbv6m-none-eabi"], .directory),
    (["ws", "target", "thumbv6m-none-eabi", "release"], .directory),
    (["ws", "target", "thumbv6m-none-eabi", "release", "blinky"],
      .file 0 (.bytes ByteArray.empty) 0)]⟩
    ending := .exited 0 }

end TabPackager.CommandLine
