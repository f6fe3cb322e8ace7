import TabPackager.Path
import TabPackager.ShellWord

/-!
# Invocations of tools

One call of a tool: its argument vector, the directory in which it runs and what the call is
for. A dry run lists its invocations instead of making them.
-/

namespace TabPackager

structure Invocation where
  command : List String
  directory : Option Path := none
  purpose : Option String := none
  deriving DecidableEq, Repr

namespace Invocation

/-- The line that a dry run prints for a call: its purpose unless that is empty, the directory,
for which the workspace stands in if there is none, and the command. -/
def dryRunLine (workspace : Option Path) (c : Invocation) : String :=
  let purpose := (c.purpose.filter (· ≠ "")).toList
  let directory := (c.directory <|> workspace).toList.map fun p => s!"(cwd={p})"
  " ".intercalate ("[dry-run]" :: purpose ++ directory ++ [ShellWord.formatCommand c.command])

end Invocation

def exitMessage (command : List String) (code : Int) : String :=
  s!"Command failed with exit code {code}: " ++ ShellWord.formatCommand command

end TabPackager
