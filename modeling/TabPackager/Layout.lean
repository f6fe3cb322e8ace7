import TabPackager.Path

/-!
# Artifact layout

Where a build leaves the executable of a binary and where packaging writes the bundle and the
binary format made from it. All paths are taken from the workspace directory.
-/

namespace TabPackager

/-- The names that decide where artifacts lie: the binary and the target triple. -/
structure Layout where
  binary : String
  triple : String
  deriving DecidableEq, Repr

namespace Layout

def profile : String := "release"

def targetDirectory : Path := Path.parse "target"

variable (l : Layout)

def profileDirectory : Path := (targetDirectory.child l.triple).child profile

def elf : Path := l.profileDirectory.child l.binary

def tab : Path := targetDirectory.child (l.binary ++ ".tab")

def tbf : Path := l.profileDirectory.child (l.binary ++ ".tbf")

def completion : String := s!"Built \x60{l.tab}\x60 and \x60{l.tbf}\x60"

end Layout

end TabPackager
