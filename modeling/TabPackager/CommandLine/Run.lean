import TabPackager.Bundle.Write
import TabPackager.CommandLine.Options
import TabPackager.Config.File
import TabPackager.FileSystem.Canonical
import TabPackager.Pipeline

/-!
# Runs of the command line

A run from its argument vector to its exit status: the options are read, the workspace and the
configuration found, the binary is built and packaged, and the artifacts are bundled if that is
asked for. Every failure that the program knows becomes a message and an exit status.
-/

namespace TabPackager.CommandLine

/-- What a run finds around it: the current directory, home directories, the time, and the names
of files used while a bundle is written, with what goes wrong there. -/
structure Host where
  cwd : Path
  homes : FileSystem.Homes
  now : Int
  scratch : Bundle.Scratch
  mishaps : Bundle.Mishaps := {}

def program : String := "tockpack"

def usageLine : String := s!"usage: {program} [options] <binary-name> <target-triple>"

def helpLines : List String :=
  [usageLine,
    "",
    "Build a Tock application with cargo and package it with elf2tab",
    "",
    "positional arguments:",
    "  ARG                   Binary name followed by the target triple",
    "",
    "options:",
    "  -h, --help            show this help message and exit",
    "  --config CONFIG, -c CONFIG",
    "                        Packaging configuration file (toml, json or yaml)",
    "  --directory DIRECTORY, -C DIRECTORY",
    "                        Run in this directory instead of the current one",
    "  --dry-run, -n         Show what would be done without doing it",
    "  --bundle BUNDLE       Archive the produced TAB and TBF into this file",
    "  --verbose, -v         Enable verbose output (maps to debug)",
    "  --log \x7bnone,error,info,debug\x7d, -l \x7bnone,error,info,debug\x7d",
    "                        Set log level (default: none)"]

def usageLines : List String :=
  [s!"Usage: {program} <binary-name> <target-triple>",
    s!"Example: {program} blinky thumbv6m-none-eabi"]

def workspaceOf (host : Host) (o : Options) : Action Path := do
  match o.directory with
  | .absent => return host.cwd
  | .withoutValue => throw (.escape .directoryWithoutValue)
  | .value p =>
    match FileSystem.directoryOf (← get).files host.homes host.cwd p with
    | .ok there => return there
    | .error f => throw f

def configOf (host : Host) (o : Options) : Action Packaging := do
  match o.config.value? with
  | none => return {}
  | some p =>
    match Config.packagingOfFile (← get).files host.cwd.parts p with
    | .ok c =>
      Action.say (.debug s!"Loaded configuration from {p}")
      return c
    | .error f => throw f

/-- The artifacts that go into the bundle. A binary format that is not there is left out. -/
def bundleMembers (host : Host) (workspace : Path) (r : Packaged) :
    Action (List Bundle.Member) := do
  let tab := workspace / r.layout.tab
  let tbf := workspace / r.layout.tbf
  let there ←
    if r.dryRun then pure true
    else Action.ask tbf fun fs p => fs.isFile host.cwd.parts p
  if there then return [⟨tab, tab.name⟩, ⟨tbf, tbf.name⟩]
  else
    Action.say (.info s!"{r.layout.tbf} not found; bundling {r.layout.tab} only")
    return [⟨tab, tab.name⟩]

def bundleArtifacts (host : Host) (workspace : Path) (r : Packaged) (file : Path) :
    Action Unit := do
  let members ← bundleMembers host workspace r
  Action.carryOut host.cwd host.now
    (Bundle.write host.cwd r.dryRun host.scratch host.mishaps members (workspace / file))
  if !r.dryRun then
    Action.say (.output s!"Bundled {members.length} artifact(s) into {file}")

def reportResult (workspace : Path) (r : Packaged) : Action Unit := do
  if r.dryRun then
    for c in (← get).calls do
      Action.say (.output (c.dryRunLine (some workspace)))
  else Action.say (.output r.layout.completion)

/-- Everything between the reading of the options and the exit status. A dry run only has the
calls of tools recorded. -/
def execute (host : Host) (tools : Tools) (o : Options) (arguments : List String) :
    Action Unit := do
  match arguments with
  | [binary, triple] =>
    let workspace ← workspaceOf host o
    let config ← configOf host o
    let setup : Pipeline.Setup := ⟨host.cwd, workspace, config, o.dryRun⟩
    let tools := if o.dryRun then Tools.recording else tools
    let r ← Pipeline.run setup tools ⟨binary, triple⟩
    reportResult workspace r
    match o.bundle with
    | .absent => return ()
    | .withoutValue => throw (.escape .bundleWithoutValue)
    | .value file => bundleArtifacts host workspace r file
  | _ => throw (.failure (.usage "expected exactly two arguments"))

def conclude : Except Fault Unit → List Message × Except Escape Int
  | .ok () => ([], .ok 0)
  | .error (.failure (.usage _)) => (usageLines.map .output, .ok 1)
  | .error (.failure (.missingArtifact p)) =>
    ([.output ("Error: " ++ (Failure.missingArtifact p).message)], .ok 1)
  | .error (.failure (.tool role code command)) =>
    let f := Failure.tool role code command
    ([.errors ("Error: " ++ f.message), .error (ShellWord.formatCommand command)],
      .ok f.exitStatus)
  | .error (.failure f) => ([.errors ("Error: " ++ f.message)], .ok f.exitStatus)
  | .error (.config e) => ([.errors ("Error: " ++ e.message)], .ok 1)
  | .error (.bundle e) => ([.errors ("Error: " ++ e.message)], .ok 1)
  | .error (.os e) => ([.errors ("Error: " ++ e.message)], .ok 1)
  | .error (.escape e) => ([], .error e)

/-- How a run has ended: its exit status or the end that it did not expect, what it and its tools
have done, and what it prints. -/
structure Outcome where
  ending : Except Escape Int
  files : FileSystem
  calls : List Invocation := []
  printed : Printed := {}
  log : List Message := []
  console : Console := {}

namespace Outcome

def output (o : Outcome) : String := o.console.printed .output o.log

def errors (o : Outcome) : String := o.console.printed .errors o.log

end Outcome

def runParsed (host : Host) (tools : Tools) (o : Options) (arguments : List String)
    (files : FileSystem) : Outcome :=
  let (result, w) := (execute host tools o arguments).run.run { files }
  let (messages, ending) := conclude result
  { ending
    files := w.files
    calls := w.calls
    printed := w.printed
    log := w.log ++ messages
    console := Console.choose o.log o.verbose o.dryRun }

def run (host : Host) (tools : Tools) (argv : List String) (files : FileSystem) : Outcome :=
  match parse argv with
  | .ok (o, arguments) => runParsed host tools o arguments files
  | .error .help => { ending := .ok 0, files, log := helpLines.map .output }
  | .error (.refused r) =>
    { ending := .ok 2
      files
      log := [.errors usageLine, .errors s!"{program}: error: {r.message}"] }

end TabPackager.CommandLine
