import TabPackager.Commands
import TabPackager.FileSystem.Script
import TabPackager.Tool

/-!
# The packaging pipeline

Build, check, package: the build tool is called in the workspace, the executable has to be there
as the build left it, and then the packaging tool is called. The first failure ends the run, and
nothing after it is done. A dry run does not look for the executable.
-/

namespace TabPackager

/-- What a run has done so far: the file system it has reached, the calls of tools and what these
have printed, and its messages. -/
structure World where
  files : FileSystem
  calls : List Invocation := []
  printed : Printed := {}
  log : List Message := []

abbrev Action := ExceptT Fault (StateM World)

namespace Action

def say (m : Message) : Action Unit := modify fun w => { w with log := w.log ++ [m] }

def call (tools : Tools) (c : Invocation) : Action ToolEnd := do
  let w ← get
  let done := tools w.calls c w.files
  set { w with
    files := done.files
    calls := w.calls ++ [c]
    printed := w.printed ++ done.printed }
  return done.ending

def ask {α : Type} (p : Path) (question : FileSystem → String → Except Refusal α) : Action α := do
  match question (← get).files p.text with
  | .ok a => return a
  | .error why => throw (Fault.ofRefusal why (some p.text))

def carryOut {α : Type} (cwd : Path) (now : Int) (t : Task α) : Action α := do
  let w ← get
  let (result, files, log) := t.run.run cwd.parts now w.files
  set { w with files, log := w.log ++ log }
  match result with
  | .ok a => return a
  | .error f => throw f

end Action

structure Packaged where
  layout : Layout
  commands : List (List String)
  dryRun : Bool
  deriving DecidableEq, Repr

namespace Pipeline

/-- Where and how the tools are called. -/
structure Setup where
  cwd : Path
  workspace : Path
  config : Packaging
  dryRun : Bool

def buildCall (s : Setup) (l : Layout) : Invocation :=
  ⟨buildCommand l s.config, some s.workspace, some "build"⟩

def packageCall (s : Setup) (l : Layout) : Invocation :=
  ⟨packageCommand l s.config, some s.workspace, some "package"⟩

/-- The fault of a tool that could not be run. When the command itself is what was not found, the
tool is said to be missing. -/
def startFault (c : Invocation) (e : OsError) : Fault :=
  match c.command with
  | tool :: _ =>
    if e.number = 2 ∧ e.file = some tool then .failure (.toolNotFound tool) else .os e
  | [] => .os e

def invoke (tools : Tools) (role : ToolRole) (c : Invocation) : Action Unit := do
  Action.say (.debug ("Running: " ++ ShellWord.formatCommand c.command))
  match ← Action.call tools c with
  | .exited code =>
    if code = 0 then return () else throw (.failure (.tool role code c.command))
  | .failed e => throw (startFault c e)
  | .escaped e => throw (.escape e)

def checkElf (s : Setup) (l : Layout) : Action Unit := do
  if s.dryRun then Action.say (.dry s!"Would check that {l.elf} exists")
  else
    let there ← Action.ask (s.workspace / l.elf) fun fs p => fs.isFile s.cwd.parts p
    if there then return () else throw (.failure (.missingArtifact l.elf))

def run (s : Setup) (tools : Tools) (l : Layout) : Action Packaged := do
  let there ← Action.ask s.workspace fun fs p => fs.isDirectory s.cwd.parts p
  if !there then throw (.failure (.noWorkspace s.workspace))
  Action.say (.debug s!"ELF: {l.elf}")
  Action.say (.debug s!"TAB: {l.tab}")
  Action.say (.debug s!"TBF: {l.tbf}")
  let build := buildCall s l
  Action.say (.info s!"Building {l.binary} for {l.triple}")
  invoke tools .build build
  checkElf s l
  let package := packageCall s l
  Action.say (.info s!"Packaging {l.elf} into {l.tab}")
  invoke tools .packaging package
  return ⟨l, [build.command, package.command], s.dryRun⟩

end Pipeline

end TabPackager
