import TabPackager.Path

/-!
# Failures of a packaging run

The failures that end a packaging run, what is said about each, and the exit status to which it
leads. The status of a tool that failed becomes the status of the run; a tool ended by a signal
counts as a shell counts it.
-/

namespace TabPackager

inductive ToolRole where
  | build
  | packaging
  | other
  deriving DecidableEq, Repr

def ToolRole.label : ToolRole → String
  | .build => "cargo build"
  | .packaging => "elf2tab"
  | .other => "tool"

/-- A failure that ends a packaging run. -/
inductive Failure where
  | usage (text : String)
  | general (text : String)
  | missingArtifact (path : Path)
  | noWorkspace (path : Path)
  | toolNotFound (tool : String)
  | tool (role : ToolRole) (code : Int) (command : List String)
  deriving DecidableEq, Repr

namespace Failure

def message : Failure → String
  | usage s => s
  | general s => s
  | missingArtifact p => s!"ELF file not found at {p}"
  | noWorkspace p => s!"{p} is not a directory"
  | toolNotFound t => t ++ ": command not found"
  | tool role code _ => role.label ++ s!" failed with exit code {code}"

def exitStatus : Failure → Int
  | toolNotFound _ => 127
  | tool _ code _ => if 0 < code then code else 128 - code
  | _ => 1

end Failure

end TabPackager
