import TabPackager.CommandLine.Run
import TabPackager.Shell.Process

/-!
# The program

The command line as a program. The files below the current directory, and below the directory
that the arguments name, are read into memory, and the run works on them there: a dry run shows
what would be done, and other runs find the tools of the modelled machine.
-/

namespace TabPackager

def readDepth : Nat := 64

def readEntry : Nat → Location → FileSystem → IO.FS.DirEntry → IO FileSystem
  | 0, _, files, _ => return files
  | depth + 1, parent, files, e => do
    let loc := parent ++ [e.fileName]
    let facts ← e.path.symlinkMetadata
    let time := facts.modified.sec * 1000000000 + facts.modified.nsec.toNat
    match facts.type with
    | .dir => (← e.path.readDir).foldlM (readEntry depth loc) (files.insert loc .directory)
    | .file =>
      let data ← IO.FS.readBinFile e.path
      return files.insert loc (.file files.freshIdentity (.bytes data) time)
    | .symlink =>
      let there ← try IO.FS.realPath e.path catch _ => pure e.path
      return files.insert loc (.link (toString there) time)
    | .other => return files

/-- Adds what stands below a directory, and the directories on the way to it. -/
def readBelow (files : FileSystem) (directory : String) : IO FileSystem := do
  let there ← IO.FS.realPath directory
  let loc := (Path.parse (toString there)).parts
  let way := (List.range loc.length).map fun n => loc.take (n + 1)
  let files := way.foldl (fun files l => files.insert l .directory) files
  (← there.readDir).foldlM (readEntry readDepth loc) files

def hostOf (cwd : String) : IO CommandLine.Host := do
  let number ← IO.rand 0 99999999
  return {
    cwd := Path.parse cwd
    homes := ⟨← IO.getEnv "HOME", []⟩
    now := ← IO.monoNanosNow
    scratch := ⟨s!"tmp{number}.partial", s!"tmp{number}.tar"⟩ }

end TabPackager

open TabPackager in
def main (arguments : List String) : IO UInt32 := do
  let cwd := toString (← IO.currentDir)
  let host ← hostOf cwd
  let named := match CommandLine.parse arguments with
    | .ok (o, _) => o.directory.value?.toList.map Path.text
    | .error _ => []
  let read (files : FileSystem) (directory : String) : IO FileSystem :=
    try readBelow files directory catch _ => pure files
  let files ← (cwd :: named).foldlM read default
  let environment := host.homes.own.toList.map fun home => ("HOME", home)
  let tools := Shell.tools environment host.cwd host.now
  let outcome := CommandLine.run host tools arguments files
  (← IO.getStdout).write outcome.printed.output
  (← IO.getStderr).write outcome.printed.errors
  (← IO.getStdout).putStr outcome.output
  (← IO.getStderr).putStr outcome.errors
  match outcome.ending with
  | .ok status => return (status % 256).toNat.toUInt32
  | .error e =>
    (← IO.getStderr).putStrLn (e.message?.getD "unexpected end")
    return 1
