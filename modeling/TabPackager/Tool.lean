import TabPackager.Fault
import TabPackager.FileSystem.Basic
import TabPackager.Invocation

/-!
# Tools

The external tools as the program meets them: at each call they may change the file system in any
way, knowing all calls before, may print on the two streams, and then end with an exit code or in
an error. A recording tool does nothing and reports success.
-/

namespace TabPackager

structure Printed where
  output : ByteArray := ByteArray.empty
  errors : ByteArray := ByteArray.empty

instance : Append Printed := ⟨fun a b => ⟨a.output ++ b.output, a.errors ++ b.errors⟩⟩

inductive ToolEnd where
  | exited (code : Int)
  | failed (e : OsError)
  | escaped (e : Escape)

/-- What a call of a tool leaves: the file system, the end of the call, and what was printed. -/
structure ToolRun where
  files : FileSystem
  ending : ToolEnd
  printed : Printed := {}

/-- The behaviour of tools, given the calls before, the call, and the file system. -/
abbrev Tools := List Invocation → Invocation → FileSystem → ToolRun

namespace Tools

def recording : Tools := fun _ _ files => { files, ending := .exited 0 }

def missing : Tools := fun _ _ files => { files, ending := .escaped .unimplemented }

end Tools

end TabPackager
